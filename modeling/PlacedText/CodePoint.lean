/-!
# Code points and texts

A `CodePoint` is any number below `0x110000`, the surrogates `D800` to `DFFF` included, so that a
`Text` can hold what a lossless decoding of arbitrary bytes produces.  Length, comparison and
columns count code points everywhere in this library.
-/

namespace PlacedText

/-- A Unicode code point, surrogates included. -/
structure CodePoint where
  /-- The number of the code point. -/
  toNat : Nat
  isLt : toNat < 0x110000
deriving DecidableEq

/-- A text is a sequence of code points. -/
abbrev Text := List CodePoint

/-- Raw bytes, as a byte stream gives them. -/
abbrev Bytes := List UInt8

namespace CodePoint

/-- The code point of a number, if the number is in range. -/
def ofNat? (n : Nat) : Option CodePoint :=
  if h : n < 0x110000 then some ⟨n, h⟩ else none

/-- The code point of a character. -/
def ofChar (c : Char) : CodePoint :=
  ⟨c.toNat, by
    have h := c.valid
    simp only [Char.toNat, UInt32.isValidChar, Nat.isValidChar] at *
    omega⟩

/-- The code point of a byte, which is the Latin-1 character with that number. -/
def ofByte (b : UInt8) : CodePoint :=
  ⟨b.toNat, by have := b.toNat_lt; omega⟩

/-- Carriage return, `U+000D`. -/
def carriageReturn : CodePoint := ⟨0x0D, by decide⟩

/-- Line feed, `U+000A`. -/
def lineFeed : CodePoint := ⟨0x0A, by decide⟩

/-- The replacement character, `U+FFFD`, which stands for what could not be decoded. -/
def replacement : CodePoint := ⟨0xFFFD, by decide⟩

/-- Surrogates are the code points from `D800` to `DFFF`. -/
def isSurrogate (c : CodePoint) : Bool := 0xD800 ≤ c.toNat && c.toNat ≤ 0xDFFF

end CodePoint

/-- The text of a string: its characters as code points. -/
def text (s : String) : Text := s.toList.map CodePoint.ofChar

namespace Text

/-- The order of texts by code point: a proper beginning of a text comes before it. -/
def atMost : Text → Text → Bool
  | [], _ => true
  | _ :: _, [] => false
  | c :: s, d :: t => c.toNat < d.toNat || (c = d && atMost s t)

/-- The string of a text, if the text holds no surrogate. -/
def toString? (t : Text) : Option String :=
  (t.mapM fun (c : CodePoint) =>
    if c.isSurrogate then none else some (Char.ofNat c.toNat)).map String.ofList

end Text

end PlacedText
