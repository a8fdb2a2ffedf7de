import PlacedText.Text.Decimal

/-!
# Positions and spans

A position is a line and a column, both counted from zero; positions are ordered by line, then by
column, which is reading order.  A `Span` is closed: both of its ends point at a character.  Labels
shown to a reader of the text count from one.
-/

namespace PlacedText

/-- A place in a text: a line and a column in it, both from zero. -/
@[ext]
structure Position where
  line : Int
  column : Int
deriving DecidableEq

namespace Position

/-- Where every text begins. -/
def start : Position := ⟨0, 0⟩

/-- The place of the next character of the same line. -/
def right (p : Position) : Position := ⟨p.line, p.column + 1⟩

/-- The first place of the next line. -/
def nextLine (p : Position) : Position := ⟨p.line + 1, 0⟩

/-- A character ends its line if it is a line feed, or a carriage return that no line feed
follows. -/
def endsLine (c : CodePoint) (following : Option CodePoint) : Bool :=
  c = .lineFeed || (c = .carriageReturn && following ≠ some .lineFeed)

/-- Where the character after `c` stands, if `c` stands at `p` and `following` is the character
after it. -/
def after (p : Position) (c : CodePoint) (following : Option CodePoint) : Position :=
  if endsLine c following then p.nextLine else p.right

/-! ### Reading order -/

instance : LT Position where
  lt p q := p.line < q.line ∨ (p.line = q.line ∧ p.column < q.column)

instance : LE Position where
  le p q := p.line < q.line ∨ (p.line = q.line ∧ p.column ≤ q.column)

instance (p q : Position) : Decidable (p < q) :=
  inferInstanceAs (Decidable (p.line < q.line ∨ (p.line = q.line ∧ p.column < q.column)))

instance (p q : Position) : Decidable (p ≤ q) :=
  inferInstanceAs (Decidable (p.line < q.line ∨ (p.line = q.line ∧ p.column ≤ q.column)))

theorem lt_iff {p q : Position} :
    p < q ↔ p.line < q.line ∨ (p.line = q.line ∧ p.column < q.column) := Iff.rfl

theorem le_iff {p q : Position} :
    p ≤ q ↔ p.line < q.line ∨ (p.line = q.line ∧ p.column ≤ q.column) := Iff.rfl

theorem le_refl (p : Position) : p ≤ p := .inr ⟨rfl, Int.le_refl _⟩

/-- Positions put in reading order. -/
def sorted (ps : List Position) : List Position := ps.mergeSort fun p q => p ≤ q

/-! ### Written forms -/

/-- The line and column from one, `line:column`. -/
def label (p : Position) : Text :=
  Decimal.ofInt (p.line + 1) ++ text ":" ++ Decimal.ofInt (p.column + 1)

/-- The numbers that stand in the label. -/
def labelNumbers (p : Position) : List Int := [p.line + 1, p.column + 1]

/-- The label, unless a number in it is too long. -/
def label? (p : Position) : Except Decimal.TooLong Text := Decimal.showing p.labelNumbers p.label

/-- The line and column as they are stored, `line:column`. -/
def rawLabel (p : Position) : Text :=
  Decimal.ofInt p.line ++ text ":" ++ Decimal.ofInt p.column

/-- The written form of a position, with its fields named. -/
def written (p : Position) : Text :=
  text "Position(line=" ++ Decimal.ofInt p.line ++ text ", column=" ++ Decimal.ofInt p.column ++
    text ")"

/-- The numbers that are stored. -/
def numbers (p : Position) : List Int := [p.line, p.column]

/-- The written form, unless a number in it is too long. -/
def written? (p : Position) : Except Decimal.TooLong Text := Decimal.showing p.numbers p.written

end Position

/-- A stretch of text, from the place of its first character to the place of its last. -/
structure Span where
  first : Position
  last : Position
deriving DecidableEq

namespace Span

/-- The labels of both ends, `first-last`. -/
def label (s : Span) : Text := s.first.label ++ text "-" ++ s.last.label

/-- The numbers that stand in the labels of both ends. -/
def labelNumbers (s : Span) : List Int := s.first.labelNumbers ++ s.last.labelNumbers

/-- The labels of both ends, unless a number in them is too long. -/
def label? (s : Span) : Except Decimal.TooLong Text := Decimal.showing s.labelNumbers s.label

/-- The written form of a span, with its fields named. -/
def written (s : Span) : Text :=
  text "Span(start=" ++ s.first.written ++ text ", end=" ++ s.last.written ++ text ")"

/-- The written form, unless a number in it is too long. -/
def written? (s : Span) : Except Decimal.TooLong Text :=
  Decimal.showing (s.first.numbers ++ s.last.numbers) s.written

end Span

end PlacedText
