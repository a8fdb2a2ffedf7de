import PlacedText.Placed.Char

/-!
# Where the characters of a text stand

`Text.placeAt t k` is the place of the character with index `k`, told by counting from the start of
the text: the first character stands at `0:0`, and each other one right of the one before it, or at
the beginning of the next line if the one before it ends its line.  `Text.charAt? t k` is that
character with its place.

Placing a text at once agrees with this count (`getElem?_place`, `place_snd`).  Placing it in two
parts is the same as placing it at once, unless the cut goes through a carriage return and the line
feed after it (`place_append`).
-/

namespace PlacedText

namespace Text

/-- The place of the character of index `k` in a text that begins at `p`; behind the last character,
the place of a further one. -/
def placeFrom (p : Position) (t : Text) : Nat → Position
  | 0 => p
  | k + 1 =>
    match t[k]? with
    | none => placeFrom p t k
    | some c => (placeFrom p t k).after c t[k + 1]?

/-- The place of the character of index `k`, counted from the start of the text. -/
def placeAt (t : Text) (k : Nat) : Position := placeFrom .start t k

/-- The character of index `k` with its place. -/
def charAt? (t : Text) (k : Nat) : Option PlacedChar := t[k]?.map (.single (t.placeAt k))

/-- The first character only shifts the count. -/
theorem placeFrom_cons (p : Position) (c : CodePoint) (t : Text) (k : Nat) :
    placeFrom p (c :: t) (k + 1) = placeFrom (p.after c t.head?) t k := by
  induction k with
  | zero =>
    rw [placeFrom, placeFrom, placeFrom]
    simp only [List.getElem?_cons_zero, List.getElem?_cons_succ, List.head?_eq_getElem?]
  | succ k ih =>
    rw [placeFrom, ih]
    simp only [List.getElem?_cons_succ]
    rfl

end Text

/-! ### Placing by counting -/

/-- The characters of a text placed at once stand where counting puts them. -/
theorem getElem?_place_fst (p : Position) (t : Text) (k : Nat) :
    (place p t).1[k]? = t[k]?.map (.single (Text.placeFrom p t k)) := by
  induction t generalizing p k with
  | nil => simp
  | cons c t ih =>
    rw [place_cons]
    cases k with
    | zero => simp [Text.placeFrom]
    | succ k => simp only [List.getElem?_cons_succ, ih, Text.placeFrom_cons]

/-- A character behind a text placed at once stands where counting puts it. -/
theorem place_snd (p : Position) (t : Text) : (place p t).2 = Text.placeFrom p t t.length := by
  induction t generalizing p with
  | nil => rfl
  | cons c t ih => rw [place_cons, ih, List.length_cons, Text.placeFrom_cons]

/-- Only a text without characters is placed as nothing. -/
theorem place_fst_eq_nil_iff {p : Position} {t : Text} : (place p t).1 = [] ↔ t = [] := by
  rw [← List.length_eq_zero_iff, length_place, List.length_eq_zero_iff]

theorem getElem?_place (t : Text) (k : Nat) : (place .start t).1[k]? = t.charAt? k :=
  getElem?_place_fst .start t k

/-- Characters that a text begins with stand where counting puts them. -/
theorem charAt?_of_prefix_place {cs : List PlacedChar} {t : Text} (h : cs <+: (place .start t).1)
    {k : Nat} {c : PlacedChar} (hk : cs[k]? = some c) : t.charAt? k = some c := by
  obtain ⟨later, hlater⟩ := h
  obtain ⟨hlt, -⟩ := List.getElem?_eq_some_iff.1 hk
  rw [← getElem?_place, ← hlater, List.getElem?_append_left hlt]
  exact hk

/-- From an index on, the characters stand as if the rest of the text were placed there. -/
theorem drop_place_fst (p : Position) (t : Text) (k : Nat) :
    (place p t).1.drop k = (place (Text.placeFrom p t k) (t.drop k)).1 := by
  induction t generalizing p k with
  | nil => rw [place_nil, List.drop_nil, List.drop_nil, place_nil]
  | cons c t ih =>
    cases k with
    | zero => rfl
    | succ k => rw [place_cons, List.drop_succ_cons, List.drop_succ_cons, ih, Text.placeFrom_cons]

/-! ### The text of placed characters -/

/-- The values of placed characters, one after the other. -/
def textOf (cs : List PlacedChar) : Text := cs.flatMap (·.value)

@[simp] theorem textOf_append (cs ds : List PlacedChar) :
    textOf (cs ++ ds) = textOf cs ++ textOf ds := List.flatMap_append

/-- Placing a text keeps it. -/
@[simp] theorem textOf_place (p : Position) (t : Text) : textOf (place p t).1 = t := by
  induction t generalizing p with
  | nil => rfl
  | cons c t ih =>
    rw [place_cons, textOf, List.flatMap_cons]
    exact congrArg (c :: ·) (ih _)

/-! ### Placing in parts -/

/-- A cut between two parts of a text is **clean** if it does not go through a carriage return and
the line feed after it. -/
def CleanCut (s t : Text) : Prop :=
  s.getLast? = some .carriageReturn → t.head? ≠ some .lineFeed

/-- At a clean cut, what comes behind the cut does not matter for the place behind it. -/
theorem CleanCut.endsLine_eq {c : CodePoint} {t : Text} (h : CleanCut [c] t) :
    Position.endsLine c t.head? = Position.endsLine c none := by
  unfold Position.endsLine
  by_cases hc : c = .carriageReturn
  · have : t.head? ≠ some .lineFeed := h (by rw [hc]; rfl)
    simp [hc, this]
  · simp [hc]

theorem CleanCut.of_cons {c d : CodePoint} {s t : Text} (h : CleanCut (c :: d :: s) t) :
    CleanCut (d :: s) t := by
  intro hl
  exact h (by rw [List.getLast?_cons_cons]; exact hl)

/-- What comes later behind a cut does not matter. -/
theorem CleanCut.of_append {s t u : Text} (h : CleanCut s (t ++ u)) : CleanCut s t := by
  intro hreturn hfeed
  apply h hreturn
  rw [List.head?_append, hfeed]
  rfl

/-- Neither does what comes earlier, in front of some characters. -/
theorem CleanCut.append_left {t u : Text} (h : CleanCut t u) (ht : t ≠ []) (s : Text) :
    CleanCut (s ++ t) u := by
  intro hreturn
  rw [List.getLast?_append, List.getLast?_eq_some_getLast ht, Option.some_or,
    ← List.getLast?_eq_some_getLast ht] at hreturn
  exact h hreturn

/-- **Placing in parts.**  The parts of a text on both sides of a clean cut can be placed one after
the other. -/
theorem place_append (p : Position) {s t : Text} (h : CleanCut s t) :
    place p (s ++ t) =
      ((place p s).1 ++ (place (place p s).2 t).1, (place (place p s).2 t).2) := by
  induction s generalizing p with
  | nil => rfl
  | cons c s ih =>
    cases s with
    | nil =>
      -- The last character before the cut, placed without knowing what comes behind it.
      have hafter : p.after c t.head? = p.after c none := by
        rw [Position.after, h.endsLine_eq, Position.after]
      rw [List.singleton_append, place_cons, place_cons, hafter]
      rfl
    | cons d s =>
      rw [List.cons_append, place_cons, ih _ h.of_cons, place_cons p c]
      rfl

/-- Behind a clean cut, the text goes on at the place behind the part in front of it. -/
theorem placeAt_of_cleanCut {s t : Text} (h : CleanCut s t) :
    Text.placeAt (s ++ t) s.length = (place .start s).2 := by
  cases t with
  | nil => rw [List.append_nil, Text.placeAt, place_snd]
  | cons c t =>
    -- The first character of the second part, told by counting and by placing in parts.
    have hcount : (place .start (s ++ c :: t)).1[s.length]? =
        some (.single (Text.placeAt (s ++ c :: t) s.length) c) := by
      rw [getElem?_place, Text.charAt?, List.getElem?_append_right (Nat.le_refl _), Nat.sub_self]
      rfl
    have hparts : (place .start (s ++ c :: t)).1[s.length]? =
        some (.single (place .start s).2 c) := by
      rw [place_append .start h, List.getElem?_append_right (Nat.le_of_eq (length_place _ _)),
        length_place, Nat.sub_self, place_cons]
      rfl
    rw [hcount] at hparts
    exact congrArg PlacedChar.place (Option.some.inj hparts)

end PlacedText
