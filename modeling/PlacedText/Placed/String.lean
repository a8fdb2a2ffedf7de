import PlacedText.Placed.Char

/-!
# Placed strings

A placed string is a run of placed characters, usually a line or a token.  It has at least one
character, so it always has a span.
-/

namespace PlacedText

/-- A non-empty run of placed characters. -/
structure PlacedString where
  chars : List PlacedChar
  nonempty : chars ≠ []
deriving DecidableEq

namespace PlacedString

/-- The placed string of some characters, unless there are none. -/
def ofList? (chars : List PlacedChar) : Option PlacedString :=
  if h : chars = [] then none else some ⟨chars, h⟩

/-- The place of the first character. -/
def firstPlace (s : PlacedString) : Position := (s.chars.head s.nonempty).place

/-- The place of the last character. -/
def lastPlace (s : PlacedString) : Position := (s.chars.getLast s.nonempty).place

/-- From the first character to the last. -/
def span (s : PlacedString) : Span := ⟨s.firstPlace, s.lastPlace⟩

/-- The number of placed characters. -/
def length (s : PlacedString) : Nat := s.chars.length

/-- The values of the characters, one after the other. -/
def toText (s : PlacedString) : Text := s.chars.flatMap (·.value)

end PlacedString

end PlacedText
