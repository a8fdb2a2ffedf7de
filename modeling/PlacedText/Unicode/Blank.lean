import PlacedText.Unicode.Ranges

/-!
# Blank code points

Blanks are the separators of category `Zs` and the code points whose bidirectional class is
whitespace, paragraph separator or segment separator.
-/

namespace PlacedText.Unicode

/-- The runs of blanks. -/
def blanks : Array Run := blocks #[
  (0x9, 0xD), (0x1C, 0x20), (0x85, 0x85), (0xA0, 0xA0), (0x1680, 0x1680), (0x2000, 0x200A),
  (0x2028, 0x2029), (0x202F, 0x202F), (0x205F, 0x205F), (0x3000, 0x3000)]

/-- Whether a code point is a blank. -/
def isBlank (c : CodePoint) : Bool := inRuns blanks c

end PlacedText.Unicode
