import Mathlib.Data.List.Chain
import PlacedText.Placed.String
import PlacedText.Proofs.Placed.Reference

/-!
# Characters one behind the other

`Chained p cs q` says that the characters `cs` stand one behind the other, the first one at `p`, and
that a further one would stand at `q`.  A text that is placed at once is chained (`chained_place`),
and so are texts that are placed one after the other, wherever they were cut (`Chained.append`): a
carriage return and a line feed that a cut has torn apart end two lines.

From the chain follows where the characters stand to each other: each one is right of the one before
it or at the beginning of the next line (`PlacedChar.FollowedBy`), they come in reading order, and
a string of them has a span that does not run backwards.
-/

namespace PlacedText

/-! ### Reading order -/

namespace Position

theorem lt_trans {p q r : Position} (hpq : p < q) (hqr : q < r) : p < r := by
  rw [lt_iff] at *
  omega

theorem le_of_lt {p q : Position} (h : p < q) : p ≤ q := by
  rw [lt_iff] at h
  rw [le_iff]
  omega

theorem lt_right (p : Position) : p < p.right := .inr ⟨rfl, Int.lt_succ p.column⟩

theorem lt_nextLine (p : Position) : p < p.nextLine := .inl (Int.lt_succ p.line)

theorem right_ne_nextLine (p : Position) : p.right ≠ p.nextLine := by
  intro h
  have : p.line = p.line + 1 := congrArg Position.line h
  omega

/-- The character after `c` is on the same line or begins the next one. -/
theorem after_eq (p : Position) (c : CodePoint) (following : Option CodePoint) :
    p.after c following = p.right ∨ p.after c following = p.nextLine := by
  rw [after]
  split
  · exact .inr rfl
  · exact .inl rfl

end Position

/-! ### One character behind another -/

namespace PlacedChar

theorem holds_single {p : Position} {c d : CodePoint} : (single p c).holds d = true ↔ c = d := by
  simp [single, holds]

/-- The character `d` stands directly behind `c`: on the same line, or at the beginning of the next
one.  A line feed ends its line, a carriage return ends it unless `d` is a line feed on the same
line, and no other character does. -/
structure FollowedBy (c d : PlacedChar) : Prop where
  next : d.place = c.place.right ∨ d.place = c.place.nextLine
  lineFeed : c.holds .lineFeed → d.place = c.place.nextLine
  carriageReturn : c.holds .carriageReturn → d.place = c.place.right → d.holds .lineFeed
  plain : ¬c.holds .lineFeed → ¬c.holds .carriageReturn → d.place = c.place.right

/-- The character behind `c` stands where placing puts it, whether or not it was known when `c` was
placed. -/
theorem followedBy_of_after {p : Position} {c : CodePoint} {d : PlacedChar}
    (h : d.place = p.after c none ∨ ∃ u, d.value = [u] ∧ d.place = p.after c (some u)) :
    (single p c).FollowedBy d := by
  -- Behind a carriage return on the same line, the next character was known as a line feed.
  have hreturn : c = .carriageReturn → d.place = p.right → d.holds .lineFeed := by
    rintro rfl hright
    rcases h with hnone | ⟨u, hu, hsome⟩
    · exact absurd (hright.symm.trans hnone) p.right_ne_nextLine
    · by_cases hfeed : u = .lineFeed
      · rw [holds, hu, hfeed]
        exact decide_eq_true rfl
      · rw [Position.after, Position.endsLine, if_pos (by simp [hfeed])] at hsome
        exact absurd (hright.symm.trans hsome) p.right_ne_nextLine
  obtain ⟨following, hplace⟩ : ∃ following, d.place = p.after c following := by
    rcases h with hnone | ⟨u, -, hsome⟩
    · exact ⟨none, hnone⟩
    · exact ⟨some u, hsome⟩
  refine ⟨?_, fun hc => ?_, fun hc => hreturn (holds_single.1 hc), fun hfeed hc => ?_⟩
  · rw [hplace]
    exact p.after_eq c following
  · rw [hplace, Position.after, Position.endsLine, holds_single.1 hc, if_pos (by simp)]
    rfl
  · rw [holds_single] at hfeed hc
    rw [hplace, Position.after, Position.endsLine, if_neg (by simp [hfeed, hc])]
    rfl

/-- Whatever stands behind a character comes after it in reading order. -/
theorem FollowedBy.lt {c d : PlacedChar} (h : c.FollowedBy d) : c.place < d.place := by
  rcases h.next with hright | hnext
  · rw [hright]
    exact c.place.lt_right
  · rw [hnext]
    exact c.place.lt_nextLine

end PlacedChar

/-! ### Chains -/

/-- The characters stand one behind the other, the first one at `p`, and a further one would stand
at `q`.  Behind a carriage return it may have been overlooked that a line feed comes next. -/
inductive Chained : Position → List PlacedChar → Position → Prop where
  | nil (p : Position) : Chained p [] p
  | cons {p p' q : Position} {c : CodePoint} {cs : List PlacedChar}
      (next : p' = p.after c none ∨ p' = p.after c (textOf cs).head?) (rest : Chained p' cs q) :
      Chained p (.single p c :: cs) q

/-- A text that is placed at once is chained. -/
theorem chained_place (p : Position) (t : Text) : Chained p (place p t).1 (place p t).2 := by
  induction t generalizing p with
  | nil => exact .nil p
  | cons c t ih =>
    rw [place_cons]
    exact .cons (.inr (by rw [textOf_place])) (ih _)

namespace Chained

variable {p q r : Position} {cs ds : List PlacedChar}

/-- The first character stands where the chain begins. -/
theorem place_head (h : Chained p cs q) : ∀ c ∈ cs.head?, c.place = p := by
  cases h with
  | nil => exact fun c hc => absurd hc (Option.not_mem_none c)
  | cons hnext hrest =>
    intro c hc
    obtain rfl := Option.some.inj hc
    rfl

/-- Every character is a single one. -/
theorem eq_single (h : Chained p cs q) : ∀ d ∈ cs, ∃ c, d = .single d.place c := by
  induction h with
  | nil => exact fun d hd => absurd hd List.not_mem_nil
  | @cons p p' q c cs hnext hrest ih =>
    intro d hd
    rcases List.mem_cons.1 hd with rfl | hd
    · exact ⟨c, rfl⟩
    · exact ih d hd

/-- **One chain behind another.** -/
theorem append (h : Chained p cs q) (h' : Chained q ds r) : Chained p (cs ++ ds) r := by
  induction h with
  | nil => exact h'
  | @cons p p' q c cs hnext hrest ih =>
    refine .cons ?_ (ih h')
    cases hrest with
    | nil =>
      -- What comes behind the cut was not known when `c` was placed.
      rcases hnext with hnext | hnext
      · exact .inl hnext
      · exact .inl hnext
    | cons => exact hnext

/-- Each character is followed by the next one. -/
theorem isChain (h : Chained p cs q) : cs.IsChain PlacedChar.FollowedBy := by
  induction h with
  | nil => exact .nil
  | @cons p p' q c cs hnext hrest ih =>
    refine List.isChain_cons.2 ⟨fun d hd => ?_, ih⟩
    have hplace : d.place = p' := hrest.place_head d hd
    refine PlacedChar.followedBy_of_after (hnext.imp hplace.trans fun hsome => ?_)
    -- The character behind `c` is the one that was known.
    cases hrest with
    | nil => cases hd
    | @cons _ _ _ u =>
      obtain rfl := Option.some.inj hd
      exact ⟨u, rfl, hsome⟩

/-- The characters come in reading order. -/
theorem pairwise_lt (h : Chained p cs q) : cs.Pairwise (·.place < ·.place) := by
  let before : PlacedChar → PlacedChar → Prop := fun c d => c.place < d.place
  have : Trans before before before := ⟨Position.lt_trans⟩
  exact List.isChain_iff_pairwise.1 (h.isChain.imp fun c d => PlacedChar.FollowedBy.lt)

/-- The characters have one code point each. -/
theorem length_value (h : Chained p cs q) : ∀ c ∈ cs, c.value.length = 1 := by
  intro c hc
  obtain ⟨u, hu⟩ := h.eq_single c hc
  rw [hu]
  rfl

end Chained

/-! ### Strings -/

namespace PlacedString

/-- A string of which the span does not run backwards, with as many characters as its text has code
points. -/
structure InOrder (s : PlacedString) : Prop where
  span : s.span.first ≤ s.span.last
  length : s.length = s.toText.length

/-- Characters of one code point each have a text of their number. -/
theorem length_textOf {cs : List PlacedChar} (h : ∀ c ∈ cs, c.value.length = 1) :
    (textOf cs).length = cs.length := by
  induction cs with
  | nil => rfl
  | cons c cs ih =>
    obtain ⟨hc, hcs⟩ := List.forall_mem_cons.1 h
    rw [textOf, List.flatMap_cons, List.length_append, List.length_cons, hc, Nat.add_comm]
    exact congrArg Nat.succ (ih hcs)

/-- A string of characters of a chain is in order, even if some were left out. -/
theorem inOrder_of_chained {p q : Position} {cs : List PlacedChar} {s : PlacedString}
    (h : Chained p cs q) (hs : s.chars.Sublist cs) : s.InOrder where
  length := (length_textOf fun c hc => h.length_value c (hs.subset hc)).symm
  span := by
    have hlt : s.chars.Pairwise (·.place < ·.place) := h.pairwise_lt.sublist hs
    obtain ⟨chars, hne⟩ := s
    cases chars with
    | nil => exact absurd rfl hne
    | cons c rest =>
      show c.place ≤ ((c :: rest).getLast hne).place
      rcases List.mem_cons.1 (List.getLast_mem hne) with hlast | hlast
      · rw [hlast]
        exact Position.le_refl _
      · exact Position.le_of_lt ((List.pairwise_cons.1 hlt).1 _ hlast)

end PlacedString

end PlacedText
