import PlacedText.Position

/-!
# Placed characters

A placed character is a character together with the place it was read from.  The reader hands out
characters whose value is a single code point; one built by hand may have any text as its value.
-/

namespace PlacedText

/-- A character and its place. -/
structure PlacedChar where
  place : Position
  value : Text
deriving DecidableEq

namespace PlacedChar

/-- A single code point at a place. -/
def single (p : Position) (c : CodePoint) : PlacedChar := ⟨p, [c]⟩

/-- Whether the value is this one code point. -/
def holds (pc : PlacedChar) (c : CodePoint) : Bool := pc.value = [c]

end PlacedChar

/-! ### Placing a text -/

/-- Places the characters of a text from `p` on, in front of which `placed` stand already, latest
first; also gives the place of a character that would follow. -/
def placeOnto (placed : List PlacedChar) (p : Position) : Text → List PlacedChar × Position
  | [] => (placed.reverse, p)
  | c :: rest => placeOnto (.single p c :: placed) (p.after c rest.head?) rest

/-- Places the characters of a text, the first one at `p`, and gives the place of a character that
would follow.  A carriage return that ends the text counts as the end of a line. -/
def place (p : Position) (t : Text) : List PlacedChar × Position := placeOnto [] p t

/-! ### What placing keeps -/

theorem placeOnto_eq (placed : List PlacedChar) (p : Position) (t : Text) :
    placeOnto placed p t = (placed.reverse ++ (place p t).1, (place p t).2) := by
  induction t generalizing placed p with
  | nil => simp [place, placeOnto]
  | cons c rest ih =>
    rw [place, placeOnto, placeOnto, ih, ih [PlacedChar.single p c]]
    simp

@[simp] theorem place_nil (p : Position) : place p [] = ([], p) := rfl

theorem place_cons (p : Position) (c : CodePoint) (rest : Text) :
    place p (c :: rest) =
      (.single p c :: (place (p.after c rest.head?) rest).1,
        (place (p.after c rest.head?) rest).2) := by
  rw [place, placeOnto, placeOnto_eq]
  rfl

/-- Placing makes one placed character of each character. -/
@[simp] theorem length_place (p : Position) (t : Text) : (place p t).1.length = t.length := by
  induction t generalizing p with
  | nil => rfl
  | cons c rest ih => simp [place_cons, ih]

end PlacedText
