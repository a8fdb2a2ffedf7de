import PlacedText.Reader

/-!
# Cursors

A cursor hands out the characters of a reader step by step: to the end of the data, or to the end
of the line.  It holds nothing of the reader, so that other readings may come between two steps;
what it does next depends only on what the reader is then at.
-/

namespace PlacedText

/-- Where a run of characters has got to. -/
inductive Cursor where
  /-- Goes on to the end of the data. -/
  | toEnd
  /-- Goes on to the end of the line. -/
  | inLine
  /-- Has just handed out a carriage return, and goes on if a line feed comes next. -/
  | afterReturn
  /-- Is done. -/
  | finished
deriving DecidableEq

namespace Cursor

variable {σ : Type} [InputStream CodePoint σ]

/-- Where a cursor in a line has got to with a character. -/
def afterInLine (c : PlacedChar) : Cursor :=
  if c.holds .carriageReturn then .afterReturn
  else if c.holds .lineFeed then .finished
  else .inLine

/-- Hands out the next character of a run, unless the run is over. -/
def next : Cursor → ReaderM σ (Option (PlacedChar × Cursor))
  | .toEnd => do
    if ← Reader.atEnd then return none
    return some (← Reader.read, .toEnd)
  | .inLine => do
    if ← Reader.atEnd then return none
    let c ← Reader.read
    return some (c, afterInLine c)
  | .afterReturn => do
    if ← Reader.atEnd then return none
    if (← Reader.peek).holds .lineFeed then return some (← Reader.read, .finished)
    return none
  | .finished => return none

end Cursor

end PlacedText
