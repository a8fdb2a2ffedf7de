import PlacedText.Unicode.Ranges

/-!
# Titlecase letters

Letters of category `Lt`, which are a capital and a small letter in one.
-/

namespace PlacedText.Unicode

/-- The runs of titlecase letters. -/
def titlecase : Array Run := blocks #[
  (0x1C5, 0x1C5), (0x1C8, 0x1C8), (0x1CB, 0x1CB), (0x1F2, 0x1F2), (0x1F88, 0x1F8F),
  (0x1F98, 0x1F9F), (0x1FA8, 0x1FAF), (0x1FBC, 0x1FBC), (0x1FCC, 0x1FCC), (0x1FFC, 0x1FFC)]

/-- Whether a code point is a titlecase letter. -/
def isTitlecase (c : CodePoint) : Bool := inRuns titlecase c

end PlacedText.Unicode
