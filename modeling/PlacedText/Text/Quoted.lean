import PlacedText.Text.Decimal
import PlacedText.Unicode.Printable

/-!
# Quoted texts

A text is quoted so that it can be read back: between two equal quotes, with a backslash before
each backslash and each quote of that kind, and with an escape for every code point that would not
show as itself.
-/

namespace PlacedText.Quoted

/-- The backslash, which starts an escape. -/
def backslash : CodePoint := .ofChar '\\'

/-- The quote used if there is no reason against it. -/
def singleQuote : CodePoint := .ofChar '\''

/-- The quote used for texts that hold the other quote. -/
def doubleQuote : CodePoint := .ofChar '"'

/-- The quote put around a text: the single one, unless the text holds that one and not the double
one. -/
def quoteFor (t : Text) : CodePoint :=
  if t.contains singleQuote && !t.contains doubleQuote then doubleQuote else singleQuote

/-- The escape that gives the number of a code point, with two, four or eight digits. -/
def numbered (c : CodePoint) : Text :=
  if c.toNat < 0x100 then backslash :: .ofChar 'x' :: hexDigits 2 c.toNat
  else if c.toNat < 0x10000 then backslash :: .ofChar 'u' :: hexDigits 4 c.toNat
  else backslash :: .ofChar 'U' :: hexDigits 8 c.toNat

/-- How one code point stands between two quotes of a kind. -/
def escape (quote c : CodePoint) : Text :=
  if c = quote || c = backslash then [backslash, c]
  else if c = .ofChar '\t' then [backslash, .ofChar 't']
  else if c = .lineFeed then [backslash, .ofChar 'n']
  else if c = .carriageReturn then [backslash, .ofChar 'r']
  else if Unicode.isPrintable c then [c]
  else numbered c

/-- A text between quotes. -/
def quoted (t : Text) : Text :=
  quoteFor t :: t.flatMap (escape (quoteFor t)) ++ [quoteFor t]

end PlacedText.Quoted
