import PlacedText.CodePoint

/-!
# Excerpts

A message may cite a name of any length, so it shows no more than the beginning of it.  How much
fits is measured in bytes of UTF-8, and a character that the end cuts through shows as the
replacement character.
-/

namespace PlacedText

/-- The number of bytes that a code point takes in UTF-8. -/
def CodePoint.utf8Size (c : CodePoint) : Nat :=
  if c.toNat < 0x80 then 1
  else if c.toNat < 0x800 then 2
  else if c.toNat < 0x10000 then 3
  else 4

namespace Text

/-- The beginning of a text that fits into `room` bytes. -/
def excerpt (room : Nat) : Text → Text
  | [] => []
  | c :: rest =>
    if c.utf8Size ≤ room then c :: excerpt (room - c.utf8Size) rest
    else if room = 0 then []
    else [.replacement]

/-- A name as messages cite it, with no more than 400 bytes of it. -/
def cited (name : Text) : Text := excerpt 400 name

end Text

end PlacedText
