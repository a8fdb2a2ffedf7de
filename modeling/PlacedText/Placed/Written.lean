import PlacedText.Placed.String
import PlacedText.Text.Quoted

/-!
# Written forms

The forms in which placed characters and placed strings are shown to a person who looks for a
fault: the text quoted, and where it stands.
-/

namespace PlacedText

/-- The value, and the line and column as they are stored. -/
def PlacedChar.written (pc : PlacedChar) : Text :=
  text "PositionedChar(" ++ Quoted.quoted pc.value ++ text ", " ++ pc.place.rawLabel ++ text ")"

/-- The written form of a character, unless a number in it is too long. -/
def PlacedChar.written? (pc : PlacedChar) : Except Decimal.TooLong Text :=
  Decimal.showing pc.place.numbers pc.written

/-- The text, and the label of the span. -/
def PlacedString.written (s : PlacedString) : Text :=
  text "PositionedString(" ++ Quoted.quoted s.toText ++ text ", " ++ s.span.label ++ text ")"

/-- The written form of a string, unless a number in it is too long. -/
def PlacedString.written? (s : PlacedString) : Except Decimal.TooLong Text :=
  Decimal.showing s.span.labelNumbers s.written

end PlacedText
