import PlacedText.Reader.Iterator

/-!
# Sessions

A session is a sequence of steps on a reader or on a source.  Every step is reported: its result,
the error it met, and what was noted in the journal meanwhile; an error does not end the session.
Steps can be grouped in a block.  The first error in a block ends it, and whichever way a block
ends, what the session is about is closed and the error, if any, is that of the block.  If closing
fails, its error takes the place of that one.

An action may go on for ever, and then so does the session: it has no outcome.
-/

namespace PlacedText

/-- One step of a session. -/
inductive Step (α : Type) where
  /-- An action. -/
  | act (a : α)
  /-- A block of steps, with closing at the end of it. -/
  | within (body : List (Step α))
  /-- Starts or stops the journal. -/
  | record (on : Bool)

/-- The report of a step: its result, if it has one; the reports of its block, if it is one; the
error; the view after the step; the events during it, without those reported in its block. -/
inductive Report (ρ ν : Type) where
  | mk (result : Option ρ) (block : Option (List (Report ρ ν))) (failure : Option ReadError)
    (view : ν) (events : List Event)

namespace Report

variable {ρ ν : Type}

/-- The error of the step. -/
def failure : Report ρ ν → Option ReadError
  | mk _ _ failure _ _ => failure

end Report

/-- The result of an action, the error it met, and what became of the session's subject. -/
structure Performed (τ ρ : Type) where
  result : Option ρ
  failure : Option ReadError
  subject : τ

namespace Performed

variable {τ ρ : Type}

/-- An action that gave a result. -/
def done (result : ρ) (subject : τ) : Performed τ ρ := ⟨some result, none, subject⟩

/-- An action that gave no result and met no error. -/
def silent (subject : τ) : Performed τ ρ := ⟨none, none, subject⟩

/-- An action that met an error and gave no result. -/
def failed (e : ReadError) (subject : τ) : Performed τ ρ := ⟨none, some e, subject⟩

end Performed

/-- What can be the subject of a session, with actions `α`, results `ρ` and views `ν`. -/
class Subject (τ : Type) (α ρ ν : outParam Type) where
  perform : α → τ → Option (Performed τ ρ)
  close : EStateM ReadError τ Unit
  journal : τ → Journal
  setJournal : Journal → τ → τ
  view : τ → ν

namespace Session

variable {τ α ρ ν : Type} [Subject τ α ρ ν]

/-- The report of a step that has been done, and the subject with its journal cleared. -/
def report (result : Option ρ) (block : Option (List (Report ρ ν))) (failure : Option ReadError)
    (t : τ) : Report ρ ν × τ :=
  let journal := Subject.journal t
  (.mk result block failure (Subject.view t) journal.inOrder,
    Subject.setJournal journal.cleared t)

/-- The report of a block that has been done, and the subject, which is closed at the end of it. -/
def leave (reports : List (Report ρ ν)) (t : τ) : Report ρ ν × τ :=
  match Subject.close t with
  | .ok _ t => report none (some reports) (reports.getLast?.bind Report.failure) t
  | .error e t => report none (some reports) (some e) t

mutual

/-- Does a step. -/
def runStep : Step α → τ → Option (Report ρ ν × τ)
  | .act a, t => do
    let p ← Subject.perform a t
    return report p.result none p.failure p.subject
  | .within body, t => do
    let (reports, t) ← runBlock body t
    return leave reports t
  | .record on, t =>
    some (report none none none (Subject.setJournal ((Subject.journal t).setRecording on) t))

/-- Does the steps of a block, up to the first error. -/
def runBlock : List (Step α) → τ → Option (List (Report ρ ν) × τ)
  | [], t => some ([], t)
  | step :: steps, t => do
    let (report, t) ← runStep step t
    if report.failure.isSome then return ([report], t)
    let (reports, t) ← runBlock steps t
    return (report :: reports, t)

end

/-- Does all steps. -/
def run : List (Step α) → τ → Option (List (Report ρ ν) × τ)
  | [], t => some ([], t)
  | step :: steps, t => do
    let (report, t) ← runStep step t
    let (reports, t) ← run steps t
    return (report :: reports, t)

/-! ### Blocks that are left -/

/-- The error that closing meets, if it meets one. -/
def closeError (t : τ) : Option ReadError :=
  match Subject.close t with
  | .ok _ _ => none
  | .error e _ => some e

/-- A block that is left is closed, and its error is that of closing or else that of its steps. -/
theorem leave_eq (reports : List (Report ρ ν)) (t : τ) :
    leave reports t =
      report none (some reports) ((closeError t).or (reports.getLast?.bind Report.failure))
        (Running.endState (Subject.close t)) := by
  rw [leave, closeError]
  cases Subject.close t <;> rfl

/-- The error of a block that is left. -/
theorem failure_leave (reports : List (Report ρ ν)) (t : τ) :
    (leave reports t).1.failure =
      (closeError t).or (reports.getLast?.bind Report.failure) := by
  rw [leave_eq]
  rfl

/-! ### Sessions that end -/

/-- A step that is an action ends as the action does. -/
theorem runStep_act_eq_some_iff {a : α} {t : τ} {done : Report ρ ν × τ} :
    runStep (.act a) t = some done ↔
      ∃ p, Subject.perform a t = some p ∧ report p.result none p.failure p.subject = done := by
  rw [runStep, Option.bind_eq_bind, Option.bind_eq_some_iff]
  simp only [Option.pure_def, Option.some.injEq]

/-- A block ends as its steps do, and then its subject is closed. -/
theorem runStep_within_eq_some_iff {body : List (Step α)} {t : τ} {done : Report ρ ν × τ} :
    runStep (.within body) t = some done ↔
      ∃ last, runBlock body t = some last ∧ leave last.1 last.2 = done := by
  rw [runStep, Option.bind_eq_bind, Option.bind_eq_some_iff]
  simp only [Option.pure_def, Option.some.injEq]

/-- A step that sets the journal ends. -/
theorem runStep_record_eq_some_iff {on : Bool} {t : τ} {done : Report ρ ν × τ} :
    runStep (.record on) t = some done ↔
      report none none none (Subject.setJournal ((Subject.journal t).setRecording on) t) = done := by
  rw [runStep, Option.some.injEq]

/-- A block without steps ends. -/
theorem runBlock_nil_eq_some_iff {t : τ} {done : List (Report ρ ν) × τ} :
    runBlock ([] : List (Step α)) t = some done ↔ ([], t) = done := by
  rw [runBlock, Option.some.injEq]

/-- The steps of a block end with the first one, if that one meets an error, and otherwise with the
others. -/
theorem runBlock_cons_eq_some_iff {step : Step α} {steps : List (Step α)} {t : τ}
    {done : List (Report ρ ν) × τ} :
    runBlock (step :: steps) t = some done ↔
      ∃ first, runStep step t = some first ∧
        ((∃ e, first.1.failure = some e) ∧ ([first.1], first.2) = done ∨
          first.1.failure = none ∧
            ∃ rest, runBlock steps first.2 = some rest ∧ (first.1 :: rest.1, rest.2) = done) := by
  rw [runBlock, Option.bind_eq_bind, Option.bind_eq_some_iff]
  refine exists_congr fun first => and_congr_right fun _ => ?_
  cases hfailure : first.1.failure with
  | some e => simp [hfailure]
  | none =>
    simp only [hfailure, Option.isSome_none, Bool.false_eq_true, ↓reduceIte, reduceCtorEq,
      exists_false, false_and, false_or, true_and, Option.pure_def, Option.bind_eq_bind,
      Option.bind_eq_some_iff, Option.some.injEq]

/-- A step that meets no error leaves the error of its block to the steps behind it. -/
theorem failure_getLast?_cons {first : Report ρ ν} (h : first.failure = none)
    (rest : List (Report ρ ν)) :
    (first :: rest).getLast?.bind Report.failure = rest.getLast?.bind Report.failure := by
  rw [List.getLast?_cons]
  cases rest.getLast? with
  | none => exact h
  | some last => rfl

/-- The steps of a session end if the first one does and then the others do. -/
theorem run_cons_eq_some_iff {step : Step α} {steps : List (Step α)} {t : τ}
    {done : List (Report ρ ν) × τ} :
    run (step :: steps) t = some done ↔
      ∃ first rest, runStep step t = some first ∧ run steps first.2 = some rest ∧
        (first.1 :: rest.1, rest.2) = done := by
  rw [run, Option.bind_eq_bind, Option.bind_eq_some_iff]
  constructor
  · rintro ⟨first, hfirst, hrun⟩
    obtain ⟨rest, hrest, hdone⟩ := Option.bind_eq_some_iff.1 hrun
    exact ⟨first, rest, hfirst, hrest, Option.some.inj hdone⟩
  · rintro ⟨first, rest, hfirst, hrest, rfl⟩
    exact ⟨first, hfirst, Option.bind_eq_some_iff.2 ⟨rest, hrest, rfl⟩⟩

end Session

end PlacedText
