import PlacedText.Proofs.Reader.SourceAlike
import PlacedText.Proofs.Reader.Prospect

/-!
# The errors that actions meet

`Meets I E x` says of an action `x` that it keeps the property `I` of readers, and that an error it
ends with is in `E`.  Only asking for the end, taking in and taking out have to be known
(`Reader.Bears`); the rest is put together from them.

A cursor asks for the end before it reads, and whoever drains it asks again.  They get the same
answer, so that a run of characters never ends with the error of reading past the end
(`Producer.characters_meets`), and a string is made of no characters only if the data has ended
(`Reader.lineString_eq_emptyString_iff`).
-/

namespace PlacedText

open Running

variable {σ κ α β : Type} {I : Reader σ → Prop} {F : Fault → Prop} {E : ReadError → Prop}

/-- A fault in `F`, as an error of a reader. -/
def ReadError.FaultIn (F : Fault → Prop) (e : ReadError) : Prop :=
  ∃ fault, e = .fault fault ∧ F fault

/-- What an action has come to: the property is kept, and an error is one of those in `E`. -/
inductive Met (I : Reader σ → Prop) (E : ReadError → Prop) :
    EStateM.Result ReadError (Reader σ) α → Prop where
  | ok {a : α} {r : Reader σ} (kept : I r) : Met I E (.ok a r)
  | error {e : ReadError} {r : Reader σ} (kept : I r) (allowed : E e) : Met I E (.error e r)

/-- If the action ends, the property is kept, and an error is one of those in `E`. -/
def Meets (I : Reader σ → Prop) (E : ReadError → Prop) (x : DrainM σ α) : Prop :=
  ∀ ⦃r : Reader σ⦄, I r → ∀ ⦃result⦄, x r = some result → Met I E result

/-- The error of reading past the end. -/
def ReadError.IsEnd (e : ReadError) : Prop := ∃ place, e = .endOfData place

/-! ### Sequences -/

/-- More errors can be allowed. -/
theorem Met.mono {E' : ReadError → Prop} {result : EStateM.Result ReadError (Reader σ) α}
    (h : Met I E result) (hE : ∀ e, E e → E' e) : Met I E' result := by
  cases h with
  | ok kept => exact .ok kept
  | error kept allowed => exact .error kept (hE _ allowed)

/-- An action after another one, from a single reader on. -/
theorem Met.bind {x : ReaderM σ α} {f : α → ReaderM σ β} {r : Reader σ} (hx : Met I E (x r))
    (hf : ∀ a r₁, x r = .ok a r₁ → I r₁ → Met I E (f a r₁)) : Met I E ((x >>= f) r) := by
  rw [bind_apply]
  cases hfirst : x r with
  | error e r₁ =>
    rw [hfirst] at hx
    cases hx with
    | error kept allowed => exact .error kept allowed
  | ok a r₁ =>
    rw [hfirst] at hx
    cases hx with
    | ok kept => exact hf a r₁ hfirst kept

/-- So with actions that need not end. -/
theorem Met.partial_bind {x : DrainM σ α} {f : α → DrainM σ β} {r : Reader σ}
    (hx : ∀ first, x r = some first → Met I E first)
    (hf : ∀ a r₁, x r = some (.ok a r₁) → I r₁ → ∀ result, f a r₁ = some result → Met I E result)
    {result} (hrun : (x >>= f) r = some result) : Met I E result := by
  rw [partial_bind_apply] at hrun
  cases hfirst : x r with
  | none => rw [hfirst] at hrun; cases hrun
  | some first =>
    rw [hfirst] at hrun
    cases hx first hfirst with
    | error kept allowed =>
      cases hrun
      exact .error kept allowed
    | ok kept => exact hf _ _ hfirst kept result hrun

namespace Meets

theorem total {x : ReaderM σ α} (h : ∀ r, I r → Met I E (x r)) : Meets I E (PartialM.total x) := by
  rintro r hr result ⟨⟩
  exact h r hr

theorem pure (a : α) : Meets I E (Pure.pure a : DrainM σ α) := total fun _ hr => .ok hr

/-- An action after another one. -/
theorem bind {x : DrainM σ α} {f : α → DrainM σ β} (hx : Meets I E x)
    (hf : ∀ a, Meets I E (f a)) : Meets I E (x >>= f) := fun _ hr _ hrun =>
  Met.partial_bind (fun _ hfirst => hx hr hfirst) (fun a _ _ hr₁ _ hrest => hf a hr₁ hrest) hrun

end Meets

/-! ### Draining -/

section Draining

variable {p : Producer σ κ α}

/-- A draining keeps what the steps keep, and ends with an error only if one of them does. -/
theorem Producer.drainOnto_meets (hp : ∀ k, Meets I E (p k)) :
    ∀ (taken : List α) (k : κ) (r : Reader σ) (d : Drained σ α), p.drainOnto taken k r = some d →
      I r → I d.reader ∧ ∀ e, d.failure = some e → E e := by
  refine Producer.drainOnto.partial_correctness p _ ?_
  intro rest ih taken k r d hrun hr
  obtain ⟨result, hstep, hrun⟩ := Option.bind_eq_some_iff.1 hrun
  cases hp k hr hstep with
  | error kept allowed =>
    cases hrun
    refine ⟨kept, ?_⟩
    rintro e ⟨⟩
    exact allowed
  | @ok step r' kept =>
    cases step with
    | none =>
      cases hrun
      refine ⟨kept, ?_⟩
      rintro e ⟨⟩
    | some x => exact ih _ _ _ _ hrun kept

theorem Producer.drain_meets (hp : ∀ k, Meets I E (p k)) {k : κ} {r : Reader σ} {d : Drained σ α}
    (hr : I r) (hrun : p.drain k r = some d) : I d.reader ∧ ∀ e, d.failure = some e → E e :=
  Producer.drainOnto_meets hp [] k r d hrun hr

theorem Producer.all_meets (hp : ∀ k, Meets I E (p k)) (k : κ) : Meets I E (p.all k) := by
  intro r hr result hrun
  obtain ⟨d, hd, rfl⟩ := Option.map_eq_some_iff.1 hrun
  obtain ⟨kept, hfailure⟩ := Producer.drain_meets hp hr hd
  rw [Drained.toResult]
  cases hd' : d.failure with
  | none => exact .ok kept
  | some e => exact .error kept (hfailure e hd')

end Draining

/-! ### Asking, looking and reading -/

/-- The errors of a reader that is asked for a character: it is not stocked and the data has ended,
or the stream fails. -/
inductive Reader.Lacks (F : Fault → Prop) (r : Reader σ) : ReadError → Prop where
  | ended {place : Position} (bare : ¬r.Stocked) : Lacks F r (.endOfData place)
  | failing {e : Fault} (fault : F e) : Lacks F r (.fault e)

/-- A stocked reader lacks a character only if the stream fails. -/
theorem Reader.Lacks.faultIn {r : Reader σ} {e : ReadError} (h : r.Lacks F e) (hr : r.Stocked) :
    e.FaultIn F := by
  cases h with
  | ended bare => exact absurd hr bare
  | failing fault => exact ⟨_, rfl, fault⟩

theorem Reader.Lacks.isEnd_or_faultIn {r : Reader σ} {e : ReadError} (h : r.Lacks F e) :
    e.IsEnd ∨ e.FaultIn F := by
  cases h with
  | ended => exact .inl ⟨_, rfl⟩
  | failing fault => exact .inr ⟨_, rfl, fault⟩

variable [InputStream CodePoint σ]

/-- A property of readers that is kept by asking for the end, by taking in and by taking a character
out; and the faults that readers with this property meet are in `F`. -/
structure Reader.Bears (I : Reader σ → Prop) (F : Fault → Prop) : Prop where
  ask : ∀ ⦃r⦄, I r → I (endState (atEnd r))
  fill : ∀ ⦃r⦄, I r → I (endState (precache r))
  take : ∀ ⦃r c queue⦄, I r → r.queue = c :: queue → I { r with queue }
  fault : ∀ ⦃r e r'⦄, I r → precache r = .error (.fault e) r' → F e

namespace Reader

variable {r r₁ r' : Reader σ} {e : ReadError} {c : PlacedChar}

theorem atEnd_met (hI : Bears I F) (hr : I r) : Met I (ReadError.FaultIn F) (atEnd r) := by
  have hkept : I (endState (atEnd r)) := hI.ask hr
  by_cases hqueue : r.queue = []
  · cases hend : Source.atEnd r.source with
    | ok ended s =>
      rw [atEnd_of_source hqueue hend] at hkept ⊢
      exact .ok hkept
    | error f s =>
      -- Taking in would meet the same fault.
      rw [atEnd_of_source_fault hqueue hend] at hkept ⊢
      exact .error hkept ⟨f, rfl, hI.fault hr (precache_of_source_fault hqueue hend)⟩
  · rw [atEnd_of_queue hqueue]
    exact .ok hr

/-- A reader that is told that the data has ended was not stocked. -/
theorem not_stocked_of_atEnd (h : atEnd r = .ok true r') : ¬r.Stocked := by
  intro hr
  rw [hr.atEnd] at h
  cases h

theorem precache_met (hI : Bears I F) (hr : I r) : Met I (r.Lacks F) (precache r) := by
  have hkept : I (endState (precache r)) := hI.fill hr
  cases r.prospect with
  | ended hatEnd hprecache =>
    rw [hprecache] at hkept ⊢
    exact .error hkept (.ended (not_stocked_of_atEnd hatEnd))
  | supplied _ hprecache _ =>
    rw [hprecache] at hkept ⊢
    exact .ok hkept
  | failing _ hprecache =>
    rw [hprecache] at hkept ⊢
    exact .error hkept (.failing (hI.fault hr hprecache))

theorem peek_met (hI : Bears I F) (hr : I r) : Met I (r.Lacks F) (peek r) := by
  refine Met.bind (precache_met hI hr) fun _ r₁ hprecache hr₁ => ?_
  obtain ⟨c, queue, hqueue⟩ := exists_queue_of_precache hprecache
  simp only [bind_apply, get_apply, hqueue]
  exact .ok hr₁

theorem read_met (hI : Bears I F) (hr : I r) : Met I (r.Lacks F) (read r) := by
  refine Met.bind (precache_met hI hr) fun _ r₁ hprecache hr₁ => ?_
  obtain ⟨c, queue, hqueue⟩ := exists_queue_of_precache hprecache
  simp only [bind_apply, get_apply, hqueue]
  exact .ok (hI.take hr₁ hqueue)

end Reader

/-! ### Cursors and lines -/

/-- A step of a cursor meets only faults: it reads only where the reader is stocked. -/
theorem Cursor.next_met (hI : Reader.Bears I F) {r : Reader σ} (hr : I r) (k : Cursor) :
    Met I (ReadError.FaultIn F) (k.next r) := by
  have hread : ∀ {r₁ : Reader σ}, I r₁ → r₁.Stocked →
      Met I (ReadError.FaultIn F) (Reader.read r₁) := fun hr₁ hstocked =>
    (Reader.read_met hI hr₁).mono fun _ h => h.faultIn hstocked
  cases k with
  | finished => exact .ok hr
  | toEnd =>
    refine (Reader.atEnd_met hI hr).bind fun ended r₁ hend hr₁ => ?_
    cases ended with
    | true => exact .ok hr₁
    | false => exact (hread hr₁ (Reader.stocked_of_atEnd hend)).bind fun _ _ _ hr₂ => .ok hr₂
  | inLine =>
    refine (Reader.atEnd_met hI hr).bind fun ended r₁ hend hr₁ => ?_
    cases ended with
    | true => exact .ok hr₁
    | false => exact (hread hr₁ (Reader.stocked_of_atEnd hend)).bind fun _ _ _ hr₂ => .ok hr₂
  | afterReturn =>
    refine (Reader.atEnd_met hI hr).bind fun ended r₁ hend hr₁ => ?_
    cases ended with
    | true => exact .ok hr₁
    | false =>
      have hpeek : Met I (ReadError.FaultIn F) (Reader.peek r₁) :=
        (Reader.peek_met hI hr₁).mono fun _ h => h.faultIn (Reader.stocked_of_atEnd hend)
      refine hpeek.bind fun c r₂ hshown hr₂ => ?_
      -- What was shown is still queued, so reading it meets nothing either.
      cases c.holds .lineFeed with
      | true => exact (hread hr₂ (Reader.stocked_of_peek hshown)).bind fun _ _ _ hr₃ => .ok hr₃
      | false => exact .ok hr₂

theorem Producer.characters_meets (hI : Reader.Bears I F) (k : Cursor) :
    Meets I (ReadError.FaultIn F) (Producer.characters k) := .total fun _ hr => k.next_met hI hr

namespace Reader

variable {r r' : Reader σ}

/-- A run in a line that comes to its end without a character has found the data ended. -/
theorem atEnd_of_drain_inLine
    (h : Producer.characters.drain .inLine r = some ⟨[], none, r'⟩) : atEnd r = .ok true r' := by
  rw [Producer.drain, Producer.drainOnto] at h
  obtain ⟨result, hstep, hrun⟩ := Option.bind_eq_some_iff.1 h
  obtain rfl : Cursor.next .inLine r = result := Option.some.inj hstep
  cases hend : atEnd r with
  | error e r₁ =>
    rw [Cursor.next, bind_apply, hend] at hrun
    cases hrun
  | ok ended r₁ =>
    cases ended with
    | true =>
      rw [Cursor.next_of_atEnd hend (by decide)] at hrun
      cases hrun
      rfl
    | false =>
      cases hread : read r₁ with
      | error e r₂ =>
        rw [Cursor.next, bind_apply, hend] at hrun
        simp only [Bool.false_eq_true, ↓reduceIte, bind_apply, hread] at hrun
        cases hrun
      | ok c r₂ =>
        -- The character would be among those taken.
        rw [Cursor.next_inLine hend hread] at hrun
        have hfront : [c] <+: [] := Producer.taken_prefix_items _ _ _ _ _ hrun
        exact absurd (List.prefix_nil.1 hfront) (List.cons_ne_nil c [])

/-- What making a string of the rest of the line comes to. -/
inductive StringMade (r : Reader σ) : EStateM.Result ReadError (Reader σ) PlacedString → Prop where
  /-- There was nothing to make it of, since the data has ended. -/
  | ended {r' : Reader σ} (atEnd : atEnd r = .ok true r') : StringMade r (.error .emptyString r')
  /-- The run in the line has ended with an error. -/
  | stopped {chars : List PlacedChar} {e : ReadError} {r' : Reader σ}
      (drain : Producer.characters.drain .inLine r = some ⟨chars, some e, r'⟩) :
      StringMade r (.error e r')
  /-- The string has the characters of the run. -/
  | made {s : PlacedString} {r' : Reader σ}
      (drain : Producer.characters.drain .inLine r = some ⟨s.chars, none, r'⟩) :
      StringMade r (.ok s r')

theorem stringMade_of_lineString {result} (h : lineString r = some result) :
    r.StringMade result := by
  rw [lineString, partial_bind_apply, Producer.all] at h
  cases hdrain : Producer.characters.drain .inLine r with
  | none =>
    rw [hdrain] at h
    cases h
  | some d =>
    obtain ⟨chars, failure, r'⟩ := d
    rw [hdrain] at h
    cases failure with
    | some e =>
      cases h
      exact .stopped hdrain
    | none =>
      obtain rfl : makeString chars r' = result := Option.some.inj h
      rw [makeString, PlacedString.ofList?]
      by_cases hchars : chars = []
      · subst hchars
        exact .ended (atEnd_of_drain_inLine hdrain)
      · rw [dif_neg hchars]
        exact .made (s := ⟨chars, hchars⟩) hdrain

theorem lineString_met (hI : Bears I F) (hr : I r) {result} (hrun : lineString r = some result) :
    Met I (fun e => e = .emptyString ∧ ¬r.Stocked ∨ e.FaultIn F) result := by
  have hruns : ∀ k, Meets I (ReadError.FaultIn F) (Producer.characters k) :=
    Producer.characters_meets hI
  cases stringMade_of_lineString hrun with
  | ended hend =>
    have hkept : I (endState (atEnd r)) := hI.ask hr
    rw [hend] at hkept
    exact .error hkept (.inl ⟨rfl, not_stocked_of_atEnd hend⟩)
  | stopped hdrain =>
    obtain ⟨hkept, hfailure⟩ := Producer.drain_meets hruns hr hdrain
    exact .error hkept (.inr (hfailure _ rfl))
  | made hdrain =>
    obtain ⟨hkept, -⟩ := Producer.drain_meets hruns hr hdrain
    exact .ok hkept

/-- Every reader bears the property that says nothing, if any fault is allowed. -/
theorem bears_true : Bears (fun _ : Reader σ => True) fun _ => True :=
  ⟨fun _ _ => trivial, fun _ _ => trivial, fun _ _ _ _ _ => trivial, fun _ _ _ _ _ => trivial⟩

/-- **No string of nothing but at the end.**  Making a string of the rest of the line fails for want
of characters exactly if the data has ended. -/
theorem lineString_eq_emptyString_iff :
    lineString r = some (.error .emptyString r') ↔ atEnd r = .ok true r' := by
  constructor
  · intro h
    cases stringMade_of_lineString h with
    | ended hend => exact hend
    | stopped hdrain =>
      -- A run ends with no other error than a fault.
      obtain ⟨-, hfailure⟩ :=
        Producer.drain_meets (Producer.characters_meets bears_true) trivial hdrain
      obtain ⟨fault, heq, -⟩ := hfailure _ rfl
      cases heq
  · intro h
    have hdrain : Producer.characters.drain .inLine r = some ⟨[], none, r'⟩ :=
      Producer.drainOnto_of_end (congrArg some (Cursor.next_of_atEnd h (by decide))) []
    rw [lineString, partial_bind_apply, Producer.all, hdrain]
    rfl

/-- The next line asks for the end before it makes a string, so its string is never empty. -/
theorem nextLine_meets (hI : Bears I F) : Meets I (ReadError.FaultIn F) (nextLine (σ := σ)) := by
  intro r hr result hrun
  refine Met.partial_bind (fun _ hfirst => ?_) (fun ended r₁ hend hr₁ rest hrest => ?_) hrun
  · obtain rfl := Option.some.inj hfirst
    exact atEnd_met hI hr
  · cases ended with
    | true =>
      cases hrest
      exact .ok hr₁
    | false =>
      have hstocked : r₁.Stocked := stocked_of_atEnd (Option.some.inj hend)
      refine Met.partial_bind (fun _ hstring => ?_) (fun _ _ _ hr₂ _ hdone => ?_) hrest
      · exact (lineString_met hI hr₁ hstring).mono fun e h =>
          h.resolve_left fun hempty => hempty.2 hstocked
      · cases hdone
        exact .ok hr₂

theorem wholeText_meets (hI : Bears I F) :
    Meets I (ReadError.FaultIn F) (wholeText (σ := σ)) :=
  (Producer.all_meets (Producer.characters_meets hI) .toEnd).bind fun _ => .pure _

end Reader

theorem Producer.lines_meets (hI : Reader.Bears I F) (u : Unit) :
    Meets I (ReadError.FaultIn F) (Producer.lines (σ := σ) u) :=
  (Reader.nextLine_meets hI).bind fun _ => .pure _

/-! ### Iterators -/

theorem Iterator.next_meets (hI : Reader.Bears I F) (i : Iterator) :
    Meets I (ReadError.FaultIn F) (i.next (σ := σ)) := by
  cases i with
  | characters k => exact (Producer.characters_meets hI k).bind fun _ => .pure _
  | lines => exact (Reader.nextLine_meets hI).bind fun _ => .pure _

/-- Advancing keeps what the steps keep, and ends with an error only if one of them does. -/
theorem Iterator.advanceOnto_meets (hI : Reader.Bears I F) (times : Nat) :
    ∀ (taken : List Item) (i : Iterator) {r : Reader σ} {a : Advance σ}, I r →
      i.advanceOnto taken r times = some a →
        I a.reader ∧ ∀ e, a.failure = some e → e.FaultIn F := by
  induction times with
  | zero =>
    rintro taken i r a hr ⟨⟩
    refine ⟨hr, ?_⟩
    rintro e ⟨⟩
  | succ times ih =>
    intro taken i r a hr hrun
    obtain ⟨result, hstep, hrun⟩ := Option.bind_eq_some_iff.1 hrun
    cases i.next_meets hI hr hstep with
    | error kept allowed =>
      cases hrun
      refine ⟨kept, ?_⟩
      rintro e ⟨⟩
      exact allowed
    | @ok step r' kept =>
      cases step with
      | none =>
        cases hrun
        refine ⟨kept, ?_⟩
        rintro e ⟨⟩
      | some x => exact ih _ _ kept hrun

end PlacedText
