import PlacedText.Placed.Char
import PlacedText.Unicode.Blank
import PlacedText.Unicode.CaseMap
import PlacedText.Unicode.DecimalDigit
import PlacedText.Unicode.Letter
import PlacedText.Unicode.Lowercase
import PlacedText.Unicode.Numeric
import PlacedText.Unicode.Titlecase
import PlacedText.Unicode.Uppercase

/-!
# Classes of placed characters

What kind of character a placed character is.  A value of several code points is of a kind if all
of them are, and an empty value is of no kind, except that it counts as ASCII.  Case is decided by
the code points that have one.
-/

namespace PlacedText.PlacedChar

/-- Whether there are code points in a text and all of them are of a class. -/
def nonemptyAll (p : CodePoint → Bool) (t : Text) : Bool := !t.isEmpty && t.all p

/-- Blanks only. -/
def isWhitespace (pc : PlacedChar) : Bool := nonemptyAll Unicode.isBlank pc.value

/-- Numeric code points only. -/
def isNumber (pc : PlacedChar) : Bool := nonemptyAll Unicode.isNumeric pc.value

/-- Decimal digits only. -/
def isDigit (pc : PlacedChar) : Bool := nonemptyAll Unicode.isDecimalDigit pc.value

/-- Letters only. -/
def isLetter (pc : PlacedChar) : Bool := nonemptyAll Unicode.isLetter pc.value

/-- Something lowercase, and nothing uppercase or titlecase. -/
def isLower (pc : PlacedChar) : Bool :=
  pc.value.any Unicode.isLowercase &&
    pc.value.all fun c => !Unicode.isUppercase c && !Unicode.isTitlecase c

/-- Something uppercase, and nothing lowercase or titlecase. -/
def isUpper (pc : PlacedChar) : Bool :=
  pc.value.any Unicode.isUppercase &&
    pc.value.all fun c => !Unicode.isLowercase c && !Unicode.isTitlecase c

/-- Nothing outside ASCII. -/
def isAscii (pc : PlacedChar) : Bool := pc.value.all (·.toNat < 0x80)

/-- Between two texts in the order of code points, both included. -/
def isBetween (pc : PlacedChar) (least greatest : Text) : Bool :=
  least.atMost pc.value && pc.value.atMost greatest

/-- The image of a single code point; other values stay as they are. -/
def mapSingle (f : CodePoint → CodePoint) (pc : PlacedChar) : PlacedChar :=
  match pc.value with
  | [c] => { pc with value := [f c] }
  | _ => pc

/-- The small letter at the same place. -/
def lower (pc : PlacedChar) : PlacedChar := pc.mapSingle Unicode.toLower

/-- The capital letter at the same place. -/
def upper (pc : PlacedChar) : PlacedChar := pc.mapSingle Unicode.toUpper

end PlacedText.PlacedChar
