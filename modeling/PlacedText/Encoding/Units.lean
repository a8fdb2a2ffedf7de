import PlacedText.Encoding.Scheme

/-!
# UTF-16 and UTF-32

Characters are written in units of two or four bytes, in either byte order.  In UTF-16 a character
beyond `FFFF` takes two units: a high surrogate, then a low one.
-/

namespace PlacedText

/-- The number of two bytes in the given order. -/
def ByteOrder.join16 : ByteOrder → UInt8 → UInt8 → Nat
  | .little, a, b => b.toNat * 0x100 + a.toNat
  | .big, a, b => a.toNat * 0x100 + b.toNat

/-- The number of four bytes in the given order. -/
def ByteOrder.join32 : ByteOrder → UInt8 → UInt8 → UInt8 → UInt8 → Nat
  | .little, a, b, c, d => join16 .little c d * 0x10000 + join16 .little a b
  | .big, a, b, c, d => join16 .big a b * 0x10000 + join16 .big c d

namespace Utf16

/-- Units that begin a pair. -/
def isHigh (u : Nat) : Bool := 0xD800 ≤ u && u ≤ 0xDBFF

/-- Units that end a pair. -/
def isLow (u : Nat) : Bool := 0xDC00 ≤ u && u ≤ 0xDFFF

/-- The number that a pair of units stands for. -/
def pair (high low : Nat) : Nat := 0x10000 + (high - 0xD800) * 0x400 + (low - 0xDC00)

/-- What stands at the front of the first byte and those after it. -/
def scan (order : ByteOrder) (a : UInt8) : Bytes → Head
  | [] => .incomplete 0 .truncated
  | b :: rest =>
    let u := order.join16 a b
    if isLow u then .invalid 1 .loneLowSurrogate
    else if isHigh u then
      match rest with
      | c :: d :: _ =>
        if isLow (order.join16 c d) then
          match CodePoint.ofNat? (pair u (order.join16 c d)) with
          | some c => .char c 3
          | none => .invalid 3 .unpairedHighSurrogate
        else .invalid 1 .unpairedHighSurrogate
      | rest => .incomplete (rest.length + 1) .endOfData
    else
      match CodePoint.ofNat? u with
      | some c => .char c 1
      | none => .invalid 1 .loneLowSurrogate

end Utf16

namespace Utf32

/-- What stands at the front of the first byte and those after it. -/
def scan (order : ByteOrder) (a : UInt8) : Bytes → Head
  | b :: c :: d :: _ =>
    match CodePoint.ofNat? (order.join32 a b c d) with
    | none => .invalid 3 .aboveRange
    | some c => if c.isSurrogate then .invalid 3 .surrogate else .char c 3
  | rest => .incomplete rest.length .truncated

end Utf32

end PlacedText
