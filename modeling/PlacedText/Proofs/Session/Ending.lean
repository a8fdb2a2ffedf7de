import PlacedText.Proofs.Reader.Ending
import PlacedText.Session.Reader
import PlacedText.Session.Source

/-!
# Sessions that end

A session ends if every action on its subject does (`Session.run_ends`), whatever blocks its steps
stand in.  So every session on a source ends, and so does every session on a reader of a finite
stream (`ReaderSession.run_ends`).

A stream that goes on for ever is a danger only to steps that look for an end, of a line or of the
data.  A session of other steps ends on any stream (`ReaderSession.run_ends_of_bounded`): it keeps
no iterator that takes lines, and this is the invariant.
-/

namespace PlacedText

namespace Session

variable {τ α ρ ν : Type} [Subject τ α ρ ν]

mutual

theorem runStep_ends (h : ∀ (a : α) (t : τ), ∃ p, Subject.perform a t = some p) :
    ∀ (step : Step α) (t : τ), ∃ outcome, runStep step t = some outcome
  | .act a, t => by
    obtain ⟨p, hp⟩ := h a t
    exact ⟨_, runStep_act_eq_some_iff.2 ⟨p, hp, rfl⟩⟩
  | .within body, t => by
    obtain ⟨outcome, hbody⟩ := runBlock_ends h body t
    exact ⟨_, runStep_within_eq_some_iff.2 ⟨outcome, hbody, rfl⟩⟩
  | .record on, t => ⟨_, runStep_record_eq_some_iff.2 rfl⟩

theorem runBlock_ends (h : ∀ (a : α) (t : τ), ∃ p, Subject.perform a t = some p) :
    ∀ (steps : List (Step α)) (t : τ), ∃ outcome, runBlock steps t = some outcome
  | [], t => ⟨_, runBlock_nil_eq_some_iff.2 rfl⟩
  | step :: steps, t => by
    obtain ⟨first, hstep⟩ := runStep_ends h step t
    obtain ⟨rest, hsteps⟩ := runBlock_ends h steps first.2
    -- The first error ends the block; otherwise the other steps are done.
    cases hfailure : first.1.failure with
    | some e =>
      exact ⟨_, runBlock_cons_eq_some_iff.2 ⟨first, hstep, .inl ⟨⟨e, hfailure⟩, rfl⟩⟩⟩
    | none =>
      exact ⟨_, runBlock_cons_eq_some_iff.2 ⟨first, hstep, .inr ⟨hfailure, rest, hsteps, rfl⟩⟩⟩

end

/-- A session ends if every action on its subject ends. -/
theorem run_ends (h : ∀ (a : α) (t : τ), ∃ p, Subject.perform a t = some p)
    (steps : List (Step α)) : ∀ t : τ, ∃ outcome, run steps t = some outcome := by
  induction steps with
  | nil => exact fun t => ⟨_, rfl⟩
  | cons step steps ih =>
    intro t
    obtain ⟨first, hstep⟩ := runStep_ends h step t
    obtain ⟨rest, hsteps⟩ := ih first.2
    exact ⟨_, run_cons_eq_some_iff.2 ⟨first, rest, hstep, hsteps, rfl⟩⟩

end Session

/-- Every session on a source ends. -/
theorem SourceSession.run_ends {σ : Type} [InputStream CodePoint σ]
    (steps : List (Step SourceAction)) (s : Source σ) :
    ∃ outcome, Session.run steps s = some outcome :=
  Session.run_ends (fun _ _ => ⟨_, rfl⟩) steps s

namespace ReaderSession

variable {σ β : Type} [FiniteStream CodePoint σ]

omit [FiniteStream CodePoint σ] in
theorem doing_ends {x : DrainM σ β} {result : β → ReaderResult} {t : ReaderSession σ}
    (h : ∃ ended, x t.reader = some ended) : ∃ p, doing x result t = some p := by
  obtain ⟨ended, hended⟩ := h
  exact ⟨_, by rw [doing, hended]; rfl⟩

omit [FiniteStream CodePoint σ] in
theorem draining_ends {κ : Type} {p : Producer σ κ β} {k : κ} {result : List β → ReaderResult}
    {t : ReaderSession σ} (h : ∃ d, p.drain k t.reader = some d) :
    ∃ p', draining p k result t = some p' := by
  obtain ⟨d, hd⟩ := h
  exact ⟨_, by rw [draining, hd]; rfl⟩

/-- Every action on a reader of a finite stream ends. -/
theorem perform_ends (a : ReaderAction) (t : ReaderSession σ) : ∃ p, perform a t = some p := by
  cases a with
  | read times => exact ⟨_, rfl⟩
  | skip times => exact ⟨_, rfl⟩
  | peek => exact doing_ends ⟨_, rfl⟩
  | precache => exact doing_ends ⟨_, rfl⟩
  | atEnd => exact doing_ends ⟨_, rfl⟩
  | drain k => exact draining_ends (Producer.drain_ends Producer.characters_ends k t.reader)
  | lines => exact draining_ends (Producer.drain_ends Producer.lines_ends () t.reader)
  | wholeText =>
    obtain ⟨result, h, -⟩ := Reader.wholeText_ends t.reader
    exact doing_ends ⟨result, h⟩
  | lineString =>
    obtain ⟨result, h, -⟩ := Reader.lineString_ends t.reader
    exact doing_ends ⟨result, h⟩
  | keep name i => exact ⟨_, rfl⟩
  | advance name times =>
    obtain ⟨a, ha⟩ := Iterator.advanceOnto_ends times [] (t.iterator name) t.reader
    exact ⟨_, by rw [perform, Iterator.advance, ha]; rfl⟩
  | finish name => exact ⟨_, rfl⟩
  | settings => exact ⟨_, rfl⟩
  | close => exact ⟨_, rfl⟩

/-- **Every session on a reader of a finite stream ends**, faults and closing included. -/
theorem run_ends (steps : List (Step ReaderAction)) (t : ReaderSession σ) :
    ∃ outcome, Session.run steps t = some outcome :=
  Session.run_ends perform_ends steps t

end ReaderSession

/-! ### Steps that look for no end -/

variable {σ : Type} [InputStream CodePoint σ]

/-- An iterator that hands out single characters can be advanced on any reader, and stays one. -/
theorem Iterator.advanceOnto_ends_of_characters (times : Nat) :
    ∀ (taken : List Item) (k : Cursor) (r : Reader σ),
      ∃ a, (characters k).advanceOnto taken r times = some a ∧ a.iterator ≠ .lines := by
  induction times with
  | zero =>
    intro taken k r
    exact ⟨_, rfl, fun h => by cases h⟩
  | succ times ih =>
    intro taken k r
    rw [advanceOnto, next, Running.partial_bind_apply, Running.total_apply]
    cases k.next r with
    | error e r' => exact ⟨_, rfl, fun h => by cases h⟩
    | ok step r' =>
      cases step with
      | none => exact ⟨_, rfl, fun h => by cases h⟩
      | some x => exact ih _ x.2 r'

/-- A step that takes a number of characters known beforehand: it looks neither for the end of a
line nor for that of the data. -/
def Step.Bounded : Step ReaderAction → Bool
  | .act (.drain _) => false
  | .act .lines => false
  | .act .wholeText => false
  | .act .lineString => false
  | .act (.keep _ .lines) => false
  | .act _ => true
  | .within _ => false
  | .record _ => true

namespace ReaderSession

variable {t : ReaderSession σ} {lined : Text → Bool}

/-- The iterators that take lines are kept only under names of which `lined` tells so. -/
def KeepsLinesUnder (lined : Text → Bool) (t : ReaderSession σ) : Prop :=
  ∀ kept ∈ t.iterators, kept.2 = .lines → lined kept.1

omit [InputStream CodePoint σ] in
theorem KeepsLinesUnder.keep (h : t.KeepsLinesUnder lined) {name : Text} {i : Iterator}
    (hi : i = .lines → lined name) : (t.keep name i).KeepsLinesUnder lined := by
  intro kept hkept
  rcases List.mem_cons.1 hkept with rfl | hkept
  · exact hi
  · exact h kept (List.mem_filter.1 hkept).1

omit [InputStream CodePoint σ] in
/-- The iterator of any other name takes no lines. -/
theorem KeepsLinesUnder.lined_of_iterator (h : t.KeepsLinesUnder lined) {name : Text}
    (hi : t.iterator name = .lines) : lined name := by
  unfold iterator at hi
  cases hlookup : t.iterators.lookup name with
  | none =>
    rw [hlookup] at hi
    cases hi
  | some i =>
    rw [hlookup] at hi
    obtain ⟨before, after, hkept, -⟩ := List.lookup_eq_some_iff.1 hlookup
    refine h (name, i) ?_ hi
    rw [hkept]
    exact List.mem_append_right before List.mem_cons_self

/-- None of the iterators that are kept takes lines. -/
def KeepsNoLines (t : ReaderSession σ) : Prop := t.KeepsLinesUnder fun _ => false

omit [InputStream CodePoint σ] in
/-- The iterator of any name hands out single characters. -/
theorem KeepsNoLines.exists_cursor (h : t.KeepsNoLines) (name : Text) :
    ∃ k, t.iterator name = .characters k := by
  cases hi : t.iterator name with
  | characters k => exact ⟨k, rfl⟩
  | lines => exact absurd (h.lined_of_iterator hi) Bool.false_ne_true

/-- A bounded action ends, whatever the stream. -/
theorem perform_ends_of_bounded {a : ReaderAction} (ha : (Step.act a).Bounded)
    (h : t.KeepsNoLines) : ∃ p, perform a t = some p ∧ p.subject.KeepsNoLines := by
  have hdoing : ∀ {β : Type} (x : ReaderM σ β) (result : β → ReaderResult),
      ∃ p, doing (.total x) result t = some p ∧ p.subject.KeepsNoLines := by
    intro β x result
    refine ⟨_, rfl, ?_⟩
    cases x t.reader with
    | ok b r => exact h
    | error e r => exact h
  cases a with
  | read times => exact ⟨_, rfl, h⟩
  | skip times => exact ⟨_, rfl, h⟩
  | peek => exact hdoing _ _
  | precache => exact hdoing _ _
  | atEnd => exact hdoing _ _
  | drain k => cases ha
  | lines => cases ha
  | wholeText => cases ha
  | lineString => cases ha
  | keep name i =>
    cases i with
    | characters k => exact ⟨_, rfl, h.keep fun hi => by cases hi⟩
    | lines => cases ha
  | advance name times =>
    obtain ⟨k, hk⟩ := h.exists_cursor name
    obtain ⟨a, hadvance, hiterator⟩ := Iterator.advanceOnto_ends_of_characters times [] k t.reader
    refine ⟨_, by rw [perform, hk, Iterator.advance, hadvance]; rfl, ?_⟩
    have hkeeps : KeepsNoLines { t with reader := a.reader } := h
    exact hkeeps.keep fun hi => absurd hi hiterator
  | finish name => exact ⟨_, rfl, h.keep fun hi => by cases hi⟩
  | settings => exact ⟨_, rfl, h⟩
  | close => exact hdoing _ _

/-- **A session of bounded steps ends**, whatever the stream. -/
theorem run_ends_of_bounded {steps : List (Step ReaderAction)}
    (hsteps : ∀ step ∈ steps, step.Bounded) (h : t.KeepsNoLines) :
    ∃ outcome, Session.run steps t = some outcome := by
  induction steps generalizing t with
  | nil => exact ⟨_, rfl⟩
  | cons step steps ih =>
    have hstep : step.Bounded := hsteps step List.mem_cons_self
    have hfirst : ∃ first, Session.runStep step t = some first ∧ first.2.KeepsNoLines := by
      cases step with
      | act a =>
        obtain ⟨p, hp, hkeeps⟩ := perform_ends_of_bounded hstep h
        exact ⟨_, Session.runStep_act_eq_some_iff.2 ⟨p, hp, rfl⟩, hkeeps⟩
      | within body => cases hstep
      | record on => exact ⟨_, by rw [Session.runStep], h⟩
    obtain ⟨first, hrun, hkeeps⟩ := hfirst
    obtain ⟨rest, hrest⟩ := ih (fun step hmem => hsteps step (List.mem_cons_of_mem _ hmem)) hkeeps
    exact ⟨_, Session.run_cons_eq_some_iff.2 ⟨first, rest, hrun, hrest, rfl⟩⟩

end ReaderSession

end PlacedText
