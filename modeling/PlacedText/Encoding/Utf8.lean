import PlacedText.Encoding.Scheme

/-!
# UTF-8

A character takes one to four bytes.  What its first byte announces limits the second one, which
leaves no room for overlong forms, surrogates, or numbers beyond the last code point.  Bytes that
are no character are cut as short as possible: they go as far as they could still begin a
character.
-/

namespace PlacedText.Utf8

/-- Bytes that continue a character. -/
def isContinuation (b : UInt8) : Bool := 0x80 ≤ b.toNat && b.toNat ≤ 0xBF

/-- The six bits that a continuation byte adds. -/
def payload (b : UInt8) : Nat := b.toNat % 0x40

/-- Whether `b` can follow a first byte that announces three bytes. -/
def fitsThree (first b : UInt8) : Bool :=
  isContinuation b &&
    (if first.toNat = 0xE0 then 0xA0 ≤ b.toNat
    else if first.toNat = 0xED then b.toNat ≤ 0x9F
    else true)

/-- Whether `b` can follow a first byte that announces four bytes. -/
def fitsFour (first b : UInt8) : Bool :=
  isContinuation b &&
    (if first.toNat = 0xF0 then 0x90 ≤ b.toNat
    else if first.toNat = 0xF4 then b.toNat ≤ 0x8F
    else true)

/-- The character with this number, in the first byte and `more` bytes after it. -/
def character (n more : Nat) : Head :=
  match CodePoint.ofNat? n with
  | some c => .char c more
  | none => .invalid more .startByte

/-- What stands at the front of the first byte and those after it.  Data that stops after the two
bytes of what would be a surrogate counts as stopping inside a character. -/
def scan (first : UInt8) (rest : Bytes) : Head :=
  let n := first.toNat
  if n < 0x80 then character n 0
  else if n < 0xC2 then .invalid 0 .startByte
  else if n < 0xE0 then
    match rest with
    | [] => .incomplete 0 .endOfData
    | b :: _ =>
      if isContinuation b then character (n % 0x20 * 0x40 + payload b) 1
      else .invalid 0 .continuationByte
  else if n < 0xF0 then
    match rest with
    | [] => .incomplete 0 .endOfData
    | [b] =>
      if fitsThree first b then .incomplete 1 .endOfData
      else if n = 0xED && isContinuation b then .incomplete 0 .continuationByte
      else .invalid 0 .continuationByte
    | b :: c :: _ =>
      if !fitsThree first b then .invalid 0 .continuationByte
      else if !isContinuation c then .invalid 1 .continuationByte
      else character (n % 0x10 * 0x1000 + payload b * 0x40 + payload c) 2
  else if n < 0xF5 then
    match rest with
    | [] => .incomplete 0 .endOfData
    | b :: rest =>
      if !fitsFour first b then .invalid 0 .continuationByte
      else match rest with
        | [] => .incomplete 1 .endOfData
        | c :: rest =>
          if !isContinuation c then .invalid 1 .continuationByte
          else match rest with
            | [] => .incomplete 2 .endOfData
            | d :: _ =>
              if !isContinuation d then .invalid 2 .continuationByte
              else
                character
                  (n % 0x08 * 0x40000 + payload b * 0x1000 + payload c * 0x40 + payload d) 3
  else .invalid 0 .startByte

end PlacedText.Utf8
