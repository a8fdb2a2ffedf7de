import PlacedText.Reader.Iterator
import PlacedText.Reader.Supply

/-!
# What ends on a finite stream

Over a finite stream every action of a reader ends, draining included.  `EndsSpending spent x` says
that `x` ends on every reader and that, if it gave the value `a`, at least `spent a` characters have
gone from the supply.  The spending is what carries the argument: a producer that spends a character
on each item can be drained (`Producer.drain_ends`), and a line spends at least one, so the lines
can be drained as well.
-/

namespace PlacedText

open Running

variable {σ κ α β : Type} [FiniteStream CodePoint σ]

/-- The action ends on every reader, and a value that it gave has cost this many characters. -/
def EndsSpending (spent : α → Nat) (x : DrainM σ α) : Prop :=
  ∀ r : Reader σ, ∃ result, x r = some result ∧
    ∀ a r', result = .ok a r' → r'.supply + spent a ≤ r.supply

/-- The number of items that a producer gave in one step, which is one or none. -/
abbrev itemCount (step : Option α) : Nat := step.toList.length

namespace EndsSpending

variable {spent : α → Nat} {x : DrainM σ α}

theorem total {x : ReaderM σ α}
    (h : ∀ {r r' : Reader σ} {a : α}, x r = .ok a r' → r'.supply + spent a ≤ r.supply) :
    EndsSpending spent (PartialM.total x) :=
  fun r => ⟨x r, rfl, fun _ _ hx => h hx⟩

theorem pure {a : α} (h : spent a = 0) : EndsSpending spent (Pure.pure a : DrainM σ α) := by
  intro r
  refine ⟨_, rfl, ?_⟩
  rintro _ _ ⟨⟩
  rw [h]
  exact Nat.le_refl _

/-- Of two actions done one after the other, the second one has to spend what the first one left to
be spent. -/
theorem bind {spentAll : β → Nat} {f : α → DrainM σ β} (hx : EndsSpending spent x)
    (hf : ∀ a, EndsSpending (fun b => spentAll b - spent a) (f a)) :
    EndsSpending spentAll (x >>= f) := by
  intro r
  obtain ⟨first, hfirst, hspent⟩ := hx r
  rw [partial_bind_apply, hfirst]
  cases first with
  | error e r' => exact ⟨_, rfl, fun b r'' h => by cases h⟩
  | ok a r' =>
    obtain ⟨result, hresult, hrest⟩ := hf a r'
    refine ⟨result, hresult, ?_⟩
    intro b r'' h
    have h₁ : r'.supply + spent a ≤ r.supply := hspent a r' rfl
    have h₂ : r''.supply + (spentAll b - spent a) ≤ r'.supply := hrest b r'' h
    omega

end EndsSpending

/-! ### Draining -/

section Draining

variable {p : Producer σ κ α}

/-- A producer that spends a character on each item can be drained. -/
theorem Producer.drainOnto_ends (hp : ∀ k, EndsSpending itemCount (p k)) (taken : List α) (k : κ)
    (r : Reader σ) :
    ∃ d, p.drainOnto taken k r = some d ∧
      (d.failure = none → d.reader.supply + d.items.length ≤ r.supply + taken.length) := by
  -- The induction is on the supply, which each item brings down.
  generalize hn : r.supply = n
  induction n using Nat.strongRecOn generalizing taken k r with
  | ind n ih =>
  obtain ⟨result, hresult, hspent⟩ := hp k r
  rw [drainOnto, hresult]
  cases result with
  | error e r' => exact ⟨_, rfl, fun h => by cases h⟩
  | ok step r' =>
    have hstep := hspent step r' rfl
    cases step with
    | none =>
      refine ⟨_, rfl, fun _ => ?_⟩
      simp only [itemCount, Option.toList_none, List.length_nil, List.length_reverse] at hstep ⊢
      omega
    | some x =>
      simp only [itemCount, Option.toList_some, List.length_singleton] at hstep
      obtain ⟨d, hd, hlength⟩ := ih r'.supply (by omega) (x.1 :: taken) x.2 r' rfl
      refine ⟨d, hd, fun hnone => ?_⟩
      have := hlength hnone
      rw [List.length_cons] at this
      omega

theorem Producer.drain_ends (hp : ∀ k, EndsSpending itemCount (p k)) (k : κ) (r : Reader σ) :
    ∃ d, p.drain k r = some d := by
  obtain ⟨d, hd, -⟩ := Producer.drainOnto_ends hp [] k r
  exact ⟨d, hd⟩

theorem Producer.all_ends (hp : ∀ k, EndsSpending itemCount (p k)) (k : κ) :
    EndsSpending List.length (p.all k) := by
  intro r
  obtain ⟨d, hd, hlength⟩ := Producer.drainOnto_ends hp [] k r
  refine ⟨d.toResult, by rw [Producer.all, Producer.drain, hd]; rfl, ?_⟩
  intro items r' h
  rw [Drained.toResult] at h
  cases hfailure : d.failure with
  | none =>
    rw [hfailure] at h
    cases h
    exact hlength hfailure
  | some e =>
    rw [hfailure] at h
    cases h

end Draining

/-! ### Characters and lines -/

theorem Producer.characters_ends (k : Cursor) :
    EndsSpending itemCount (Producer.characters (σ := σ) k) := by
  refine .total fun {r r' step} h => ?_
  cases step with
  | none => exact Cursor.supply_le_of_next_eq_none h
  | some x => exact Cursor.supply_lt_of_next_eq_some h

namespace Reader

theorem atEnd_ends : EndsSpending (fun _ => 0) (PartialM.total (Reader.atEnd (σ := σ))) :=
  .total supply_le_of_atEnd

omit [FiniteStream CodePoint σ] in
/-- Making a string leaves the reader alone. -/
theorem eq_of_makeString_eq_ok {chars : List PlacedChar} {s : PlacedString} {r r' : Reader σ}
    (h : makeString chars r = .ok s r') : chars ≠ [] ∧ s.chars = chars ∧ r' = r := by
  rw [makeString, PlacedString.ofList?] at h
  by_cases hchars : chars = []
  · rw [dif_pos hchars] at h
    cases h
  · rw [dif_neg hchars] at h
    cases h
    exact ⟨hchars, rfl, rfl⟩

/-- A line that was made into a string has cost a character. -/
theorem lineString_ends : EndsSpending (fun _ => 1) (lineString (σ := σ)) := by
  refine (Producer.all_ends Producer.characters_ends .inLine).bind fun chars => .total ?_
  intro r r' s h
  obtain ⟨hne, -, rfl⟩ := eq_of_makeString_eq_ok h
  have := List.length_pos_iff.2 hne
  omega

theorem nextLine_ends : EndsSpending itemCount (nextLine (σ := σ)) := by
  refine atEnd_ends.bind fun ended => ?_
  cases ended with
  | true => exact .pure rfl
  | false => exact lineString_ends.bind fun s => .pure rfl

end Reader

theorem Producer.lines_ends (u : Unit) : EndsSpending itemCount (Producer.lines (σ := σ) u) := by
  refine Reader.nextLine_ends.bind fun line => .pure ?_
  cases line <;> rfl

theorem Reader.wholeText_ends : EndsSpending (fun _ => 0) (wholeText (σ := σ)) :=
  (Producer.all_ends Producer.characters_ends .toEnd).bind fun _ => .pure (Nat.zero_sub _)

/-! ### Iterators -/

theorem Iterator.next_ends (i : Iterator) : EndsSpending (fun _ => 0) (i.next (σ := σ)) := by
  cases i with
  | characters k => exact (Producer.characters_ends k).bind fun _ => .pure (Nat.zero_sub _)
  | lines => exact Reader.nextLine_ends.bind fun _ => .pure (Nat.zero_sub _)

theorem Iterator.advanceOnto_ends (times : Nat) :
    ∀ (taken : List Item) (i : Iterator) (r : Reader σ),
      ∃ a, i.advanceOnto taken r times = some a := by
  induction times with
  | zero => exact fun taken i r => ⟨_, rfl⟩
  | succ times ih =>
    intro taken i r
    obtain ⟨result, hresult, -⟩ := i.next_ends r
    rw [advanceOnto, hresult]
    cases result with
    | error e r' => exact ⟨_, rfl⟩
    | ok step r' =>
      cases step with
      | none => exact ⟨_, rfl⟩
      | some x => exact ih _ _ _

end PlacedText
