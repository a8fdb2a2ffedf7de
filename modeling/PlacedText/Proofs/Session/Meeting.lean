import PlacedText.Proofs.Reader.Fault
import PlacedText.Proofs.Reader.Meeting
import PlacedText.Proofs.Session.Alike

/-!
# Which errors an action can end with

An action that wants characters one by one may find that the data has ended.  An action that looks
for an end itself does not, and it meets nothing but faults of the stream; making a string of the
rest of the line is the only one that may find no characters to make it of
(`ReaderAction.MayMeet`).  Closing meets nothing but a fault of the stream that is being closed.
That the queue is empty after taking in is no error of any action.

The main statement, `errors_at_end_exact`, is about all streams and all states of a reader.
-/

namespace PlacedText

variable {σ β : Type} [InputStream CodePoint σ] {I : Reader σ → Prop} {F G : Fault → Prop}

/-- The errors that an action may end with, if the faults of reading the stream are in `F`, and
those of closing it in `G`. -/
def ReaderAction.MayMeet (F G : Fault → Prop) : ReaderAction → ReadError → Prop
  | .read _, e | .skip _, e | .peek, e | .precache, e => e.IsEnd ∨ e.FaultIn F
  | .atEnd, e | .drain _, e | .lines, e | .wholeText, e | .advance _ _, e => e.FaultIn F
  | .lineString, e => e = .emptyString ∨ e.FaultIn F
  | .keep _ _, _ | .finish _, _ | .settings, _ => False
  | .close, e => e.FaultIn G

namespace ReaderSession

variable {t : ReaderSession σ} {p : Performed (ReaderSession σ) ReaderResult}

omit [InputStream CodePoint σ] in
theorem doing_meets {E : ReadError → Prop} {x : DrainM σ β} {result : β → ReaderResult}
    (hx : ∀ ended, x t.reader = some ended → Met I E ended) (hrun : doing x result t = some p) :
    I p.subject.reader ∧ ∀ e, p.failure = some e → E e := by
  obtain ⟨ended, hended, rfl⟩ := Option.map_eq_some_iff.1 hrun
  cases hx ended hended with
  | ok kept =>
    refine ⟨kept, ?_⟩
    rintro e ⟨⟩
  | error kept allowed =>
    refine ⟨kept, ?_⟩
    rintro e ⟨⟩
    exact allowed

omit [InputStream CodePoint σ] in
theorem draining_meets {κ : Type} {E : ReadError → Prop} {q : Producer σ κ β} {k : κ}
    {result : List β → ReaderResult} (hq : ∀ k, Meets I E (q k)) (h : I t.reader)
    (hrun : draining q k result t = some p) :
    I p.subject.reader ∧ ∀ e, p.failure = some e → E e := by
  obtain ⟨d, hd, rfl⟩ := Option.map_eq_some_iff.1 hrun
  exact Producer.drain_meets hq h hd

/-- Reading a number of characters ends with an error only if a single read does. -/
theorem readOnto_meets (hI : Reader.Bears I F) (times : Nat) :
    ∀ (taken : List PlacedChar) {r : Reader σ}, I r →
      I (readOnto taken r times).reader ∧
        ∀ e, (readOnto taken r times).failure = some e → e.IsEnd ∨ e.FaultIn F := by
  induction times with
  | zero =>
    intro taken r hr
    refine ⟨hr, ?_⟩
    rintro e ⟨⟩
  | succ times ih =>
    intro taken r hr
    have hmet : Met I (r.Lacks F) (Reader.read r) := Reader.read_met hI hr
    rw [readOnto]
    generalize Reader.read r = result at hmet ⊢
    cases hmet with
    | ok kept => exact ih _ kept
    | error kept allowed =>
      refine ⟨kept, ?_⟩
      rintro e ⟨⟩
      exact allowed.isEnd_or_faultIn

/-- **One action.**  An action keeps what asking, taking in and taking out keep, and it ends with no
error but those that it may meet. -/
theorem perform_meets (hI : Reader.Bears I F) {a : ReaderAction}
    (hclose : a = .close → Met I (ReadError.FaultIn G) (Reader.close t.reader)) (h : I t.reader)
    (hrun : perform a t = some p) :
    I p.subject.reader ∧ ∀ e, p.failure = some e → a.MayMeet F G e := by
  cases a with
  | read times =>
    cases hrun
    exact readOnto_meets hI times [] h
  | skip times =>
    cases hrun
    exact readOnto_meets hI times [] h
  | peek =>
    refine doing_meets ?_ hrun
    rintro ended ⟨⟩
    exact (Reader.peek_met hI h).mono fun _ hlacks => hlacks.isEnd_or_faultIn
  | precache =>
    refine doing_meets ?_ hrun
    rintro ended ⟨⟩
    exact (Reader.precache_met hI h).mono fun _ hlacks => hlacks.isEnd_or_faultIn
  | atEnd =>
    refine doing_meets ?_ hrun
    rintro ended ⟨⟩
    exact Reader.atEnd_met hI h
  | drain k => exact draining_meets (Producer.characters_meets hI) h hrun
  | lines => exact draining_meets (Producer.lines_meets hI) h hrun
  | wholeText => exact doing_meets (fun _ hended => Reader.wholeText_meets hI h hended) hrun
  | lineString =>
    exact doing_meets (fun _ hended => (Reader.lineString_met hI h hended).mono
      fun _ he => he.imp_left And.left) hrun
  | advance name times =>
    obtain ⟨advance, hadvance, rfl⟩ := Option.map_eq_some_iff.1 hrun
    exact Iterator.advanceOnto_meets hI times [] _ h hadvance
  -- The others leave the reader to itself.
  | keep name i =>
    cases hrun
    exact ⟨h, fun e he => by cases he⟩
  | finish name =>
    cases hrun
    exact ⟨h, fun e he => by cases he⟩
  | settings =>
    cases hrun
    exact ⟨h, fun e he => by cases he⟩
  | close =>
    refine doing_meets ?_ hrun
    rintro ended ⟨⟩
    exact hclose rfl

/-- What asking, taking in and taking out keep is kept by every action but closing. -/
theorem perform_keeps (hI : Reader.Bears I F) {a : ReaderAction} (hopen : a ≠ .close)
    (h : I t.reader) (hrun : perform a t = some p) : I p.subject.reader :=
  (perform_meets (G := fun _ => False) hI (fun hclose => absurd hclose hopen) h hrun).1

end ReaderSession

/-! ### Whole sessions -/

namespace Session

variable {t : ReaderSession σ}

/-- **One step.**  What asking, taking in and taking out keep, and the journal has no part in, is
kept by a step that only reads. -/
theorem runStep_keeps (hI : Reader.Bears I F)
    (hjournal : ∀ ⦃r⦄, I r → ∀ j, I { r with source.journal := j }) {step : Step ReaderAction}
    (hstep : step.OnlyReads) (h : I t.reader) {done : Report ReaderResult Position × _}
    (hrun : runStep step t = some done) : I done.2.reader := by
  cases step with
  | act a =>
    obtain ⟨p, hp, rfl⟩ := runStep_act_eq_some_iff.1 hrun
    exact hjournal (ReaderSession.perform_keeps hI hstep.1 h hp) _
  | within body => exact hstep.elim
  | record on =>
    obtain rfl := runStep_record_eq_some_iff.1 hrun
    exact hjournal (hjournal h _) _

/-- **All steps.** -/
theorem run_keeps (hI : Reader.Bears I F)
    (hjournal : ∀ ⦃r⦄, I r → ∀ j, I { r with source.journal := j })
    {steps : List (Step ReaderAction)} (hsteps : ∀ step ∈ steps, step.OnlyReads) (h : I t.reader)
    {done : List (Report ReaderResult Position) × _} (hrun : run steps t = some done) :
    I done.2.reader := by
  induction steps generalizing t done with
  | nil =>
    cases hrun
    exact h
  | cons step steps ih =>
    obtain ⟨first, rest, hfirst, hrest, rfl⟩ := run_cons_eq_some_iff.1 hrun
    obtain ⟨hstep, hothers⟩ := List.forall_mem_cons.1 hsteps
    have hkept : I first.2.reader := runStep_keeps hI hjournal hstep h hfirst
    have hkept' : I rest.2.reader := ih hothers hkept hrest
    exact hkept'

end Session

/-! ### Errors at the end -/

/-- The faults that any reader meets are those of failed reads. -/
theorem Reader.bears_readFailed :
    Reader.Bears (fun _ : Reader σ => True) fun fault => ∃ stream : σ, ReadFailed fault stream :=
  ⟨fun _ _ => trivial, fun _ _ => trivial, fun _ _ _ _ _ => trivial,
    fun _ _ _ _ h => ⟨_, (Reader.faulted_of_precache h).source.failed⟩⟩

/-- Closing meets nothing but the fault of closing the stream. -/
theorem Reader.close_met (r : Reader σ) :
    Met (fun _ => True) (ReadError.FaultIn (Source.CloseFails · r.source)) (Reader.close r) := by
  rw [Reader.close, onSource]
  cases hclose : Source.close r.source with
  | ok u s => exact .ok trivial
  | error e s => exact .error trivial ⟨e, rfl, Source.closeFails_of_close hclose⟩

/-- A call for a character comes to what is in prospect. -/
theorem Reader.Prospect.reply {r : Reader σ} (h : r.Prospect) {call : Call}
    (hcall : call ≠ .atEnd) (hfault : ∀ e, (call.onReader r).1 ≠ .failed (.fault e)) :
    ((∃ r', Reader.atEnd r = .ok true r') ∧
        (call.onReader r).1 = .failed (.endOfData r.next)) ∨
      ∃ c queue r₁ r', Reader.atEnd r = .ok false r₁ ∧ Reader.precache r = .ok () r' ∧
        r'.queue = c :: queue ∧ Reader.peek r = .ok c r' ∧
        Reader.read r = .ok c { r' with queue } ∧ ∀ e, (call.onReader r).1 ≠ .failed e := by
  cases h with
  | ended hatEnd hprecache =>
    refine .inl ⟨⟨_, hatEnd⟩, ?_⟩
    cases call with
    | read => rw [Call.onReader, read_of_precache_error hprecache]; rfl
    | peek => rw [Call.onReader, peek_of_precache_error hprecache]; rfl
    | precache => rw [Call.onReader, hprecache]; rfl
    | atEnd => exact absurd rfl hcall
  | @supplied c queue r₁ r' hatEnd hprecache hqueue =>
    have hpeek : Reader.peek r = .ok c r' := peek_of_precache hprecache hqueue
    have hread : Reader.read r = .ok c { r' with queue } := read_of_precache hprecache hqueue
    refine .inr ⟨c, queue, r₁, r', hatEnd, hprecache, hqueue, hpeek, hread, fun e he => ?_⟩
    cases call with
    | read => rw [Call.onReader, hread] at he; cases he
    | peek => rw [Call.onReader, hpeek] at he; cases he
    | precache => rw [Call.onReader, hprecache] at he; cases he
    | atEnd => exact absurd rfl hcall
  | @failing e _ _ hprecache =>
    refine absurd ?_ (hfault e)
    cases call with
    | read => rw [Call.onReader, read_of_precache_error hprecache]; rfl
    | peek => rw [Call.onReader, peek_of_precache_error hprecache]; rfl
    | precache => rw [Call.onReader, hprecache]; rfl
    | atEnd => exact absurd rfl hcall

/-- **Errors at the end are exact.**  Take any stream, which may answer with nothing, with more than
it was asked for, or fail, and go on each time; and a reader of it in any state.

A call for a character (reading, looking or taking in) that meets no fault fails exactly if the data
has ended, and then names the place of a further character.  Otherwise it succeeds: after taking in,
a character is queued, which is the one that looking shows and that reading hands out.  A call that
meets a fault meets that of a failed read.

No action ends with an error that it may not meet: draining and advancing never end with the error
of reading past the end, lines and the whole text are never made of no characters, and an empty
queue is never met.  Closing fails only as closing the stream does.  A string of the rest of the
line fails for want of characters exactly if the data has ended. -/
theorem errors_at_end_exact (t : ReaderSession σ) :
    (∀ call : Call, call ≠ .atEnd → (∀ e, (call.onReader t.reader).1 ≠ .failed (.fault e)) →
      ∃ ended, (Call.atEnd.onReader t.reader).1 = .flag ended ∧
        (∀ place, (call.onReader t.reader).1 = .failed (.endOfData place) ↔
          ended = true ∧ place = t.reader.next) ∧
        (ended = false → ∃ c queue r', Reader.precache t.reader = .ok () r' ∧
          r'.queue = c :: queue ∧ Reader.peek t.reader = .ok c r' ∧
          Reader.read t.reader = .ok c { r' with queue })) ∧
    (∀ (call : Call) (e : Fault), (call.onReader t.reader).1 = .failed (.fault e) →
      ReadFailed e (call.onReader t.reader).2.source.stream) ∧
    (∀ (a : ReaderAction) ⦃p⦄, ReaderSession.perform a t = some p →
      ∀ e, p.failure = some e → a.MayMeet (fun fault => ∃ stream : σ, ReadFailed fault stream)
        (Source.CloseFails · t.reader.source) e) ∧
    ∀ r', Reader.lineString t.reader = some (.error .emptyString r') ↔
      Reader.atEnd t.reader = .ok true r' := by
  refine ⟨fun call hcall hfault => ?_,
    fun call e hfault => (Reader.faulted_of_call hfault).source.failed,
    fun a p hrun => ?_, fun r' => Reader.lineString_eq_emptyString_iff⟩
  · rcases t.reader.prospect.reply hcall hfault with
      ⟨⟨r', hend⟩, hreply⟩ | ⟨c, queue, r₁, r', hend, hprecache, hqueue, hpeek, hread, hreply⟩
    · refine ⟨true, by rw [Call.onReader, hend]; rfl, fun place => ?_, fun h => by cases h⟩
      rw [hreply]
      constructor
      · rintro ⟨⟩
        exact ⟨rfl, rfl⟩
      · rintro ⟨-, rfl⟩
        rfl
    · exact ⟨false, by rw [Call.onReader, hend]; rfl,
        fun place => ⟨fun he => absurd he (hreply _), fun h => by cases h.1⟩,
        fun _ => ⟨c, queue, r', hprecache, hqueue, hpeek, hread⟩⟩
  · have hbears := Reader.bears_readFailed (σ := σ)
    exact (ReaderSession.perform_meets hbears (fun _ => t.reader.close_met) trivial hrun).2

/-- A stream that has nothing ready at first, and would go on; one that fails at first, and would go
on with too much; and a reader of the latter that has a character queued already. -/
theorem errors_at_end_exact_not_ready_and_failing :
    let ended : ReaderSession (Script CodePoint) :=
      .start { items := [.notReady, .units (text "x")] } .default {}
    let failing : ReaderSession (Script CodePoint) :=
      .start { items := [.fail (text "broken"), .units (text "a\r\nb")], overlong := true }
        .default {}
    let stocked : ReaderSession (Script CodePoint) :=
      { failing with reader.queue := [.single .start .carriageReturn] }
    ((Call.read.onReader ended.reader).1 = .failed (.endOfData .start) ∧
        (Call.atEnd.onReader ended.reader).1 = .flag true ∧
        ∃ r', Reader.lineString ended.reader = some (.error .emptyString r')) ∧
      ReadFailed (.system (text "broken")) (Call.peek.onReader failing.reader).2.source.stream ∧
      (∃ p, ReaderSession.perform .lines failing = some p ∧
        ∀ e, p.failure = some e → ∃ fault, e = .fault fault) ∧
      ∃ c queue r', Reader.precache stocked.reader = .ok () r' ∧ r'.queue = c :: queue ∧
        Reader.read stocked.reader = .ok c { r' with queue } := by
  intro ended failing stocked
  obtain ⟨hended, -, -, hstring⟩ := errors_at_end_exact ended
  obtain ⟨-, hfaults, hactions, -⟩ := errors_at_end_exact failing
  obtain ⟨hstocked, -, -, -⟩ := errors_at_end_exact stocked
  refine ⟨⟨?_, ?_, ⟨_, (hstring _).2 rfl⟩⟩, hfaults .peek _ (by decide), ?_, ?_⟩
  · decide
  · have hreply : (Call.read.onReader ended.reader).1 = .failed (.endOfData .start) := by decide
    obtain ⟨b, hflag, hiff, -⟩ :=
      hended .read (by decide) fun e he => by rw [hreply] at he; cases he
    rw [hflag, ((hiff .start).1 hreply).1]
  · obtain ⟨p, hp⟩ := ReaderSession.perform_ends .lines failing
    refine ⟨p, hp, fun e he => ?_⟩
    obtain ⟨fault, rfl, -⟩ := hactions .lines hp e he
    exact ⟨fault, rfl⟩
  · have hreply : (Call.read.onReader stocked.reader).1 =
        .char (.single .start .carriageReturn) := by decide
    obtain ⟨b, hflag, -, hmore⟩ :=
      hstocked .read (by decide) fun e he => by rw [hreply] at he; cases he
    have hb : (Call.atEnd.onReader stocked.reader).1 = .flag false := by decide
    rw [hb] at hflag
    cases hflag
    obtain ⟨c, queue, r', hprecache, hqueue, -, hread⟩ := hmore rfl
    exact ⟨c, queue, r', hprecache, hqueue, hread⟩

end PlacedText
