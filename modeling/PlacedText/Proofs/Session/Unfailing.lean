import PlacedText.Proofs.Reader.Looking
import PlacedText.Proofs.Session.Alike
import PlacedText.Proofs.Stream.Watched

/-!
# Sessions without errors

A fault of the stream is the error of the action that met it, and of the block that the action
stands in.  So if no step of a session was reported with an error, no read of the stream has failed
(`Session.sound_of_no_failure`).

Two sources in the same state come to the same until they meet a fault, and up to then no read of
their streams has failed.  That is what is followed through the actions of a reader here; through
the blocks of a session it is followed by what holds as long as nothing fails
(`Session.HoldsUnlessFailing`).
-/

namespace PlacedText

/-! ### What holds as long as nothing fails -/

namespace Session

variable {τ α ρ ν : Type} [Subject τ α ρ ν] {P : τ → Prop}

/-- A property of subjects that is kept by closing, by the journal, and by every action that meets
no error. -/
structure HoldsUnlessFailing (P : τ → Prop) : Prop where
  perform : ∀ {a : α} {t : τ} {p : Performed τ ρ}, Subject.perform a t = some p →
    p.failure = none → P t → P p.subject
  close : ∀ {t : τ}, P t → P (Running.endState (Subject.close t))
  setJournal : ∀ {t : τ} (j : Journal), P t → P (Subject.setJournal j t)

namespace HoldsUnlessFailing

mutual

theorem runStep (hP : HoldsUnlessFailing P) : ∀ (step : Step α) {t : τ} {done : Report ρ ν × τ},
    Session.runStep step t = some done → done.1.failure = none → P t → P done.2
  | .act a, t, done, hrun, hnone, ht => by
    obtain ⟨p, hp, rfl⟩ := runStep_act_eq_some_iff.1 hrun
    exact hP.setJournal _ (hP.perform hp hnone ht)
  | .within body, t, done, hrun, hnone, ht => by
    obtain ⟨last, hblock, rfl⟩ := runStep_within_eq_some_iff.1 hrun
    rw [failure_leave, Option.or_eq_none_iff] at hnone
    rw [leave_eq]
    exact hP.setJournal _ (hP.close (runBlock hP body hblock hnone.2 ht))
  | .record on, t, done, hrun, _, ht => by
    obtain rfl := runStep_record_eq_some_iff.1 hrun
    exact hP.setJournal _ (hP.setJournal _ ht)

/-- A block meets no error if its last step does not. -/
theorem runBlock (hP : HoldsUnlessFailing P) : ∀ (steps : List (Step α)) {t : τ}
    {done : List (Report ρ ν) × τ}, Session.runBlock steps t = some done →
      done.1.getLast?.bind Report.failure = none → P t → P done.2
  | [], t, done, hrun, _, ht => by
    obtain rfl := runBlock_nil_eq_some_iff.1 hrun
    exact ht
  | step :: steps, t, done, hrun, hnone, ht => by
    obtain ⟨first, hfirst, ⟨⟨e, hfailure⟩, rfl⟩ | ⟨hfailure, rest, hrest, rfl⟩⟩ :=
      runBlock_cons_eq_some_iff.1 hrun
    · -- The block would end here with the error.
      rw [List.getLast?_singleton, Option.bind_some, hfailure] at hnone
      cases hnone
    · have hstep : P first.2 := runStep hP step hfirst hfailure ht
      rw [failure_getLast?_cons hfailure] at hnone
      have hothers : P rest.2 := runBlock hP steps hrest hnone hstep
      exact hothers

end

/-- What holds as long as nothing fails holds at the end of a session without errors. -/
theorem run (hP : HoldsUnlessFailing P) {steps : List (Step α)} {t : τ}
    {done : List (Report ρ ν) × τ} (hrun : Session.run steps t = some done)
    (hnone : ∀ report ∈ done.1, report.failure = none) (ht : P t) : P done.2 := by
  induction steps generalizing t done with
  | nil =>
    cases hrun
    exact ht
  | cons step steps ih =>
    obtain ⟨first, rest, hfirst, hrest, rfl⟩ := run_cons_eq_some_iff.1 hrun
    obtain ⟨hfirstNone, hrestNone⟩ := List.forall_mem_cons.1 hnone
    have hothers : P rest.2 := ih hrest hrestNone (hP.runStep step hfirst hfirstNone ht)
    exact hothers

end HoldsUnlessFailing

end Session

/-! ### Sound streams -/

variable {σ : Type} [InputStream CodePoint σ] {limit : Nat}

namespace Source

omit [InputStream CodePoint σ] in
/-- Two sources that differ in their journals only, of a stream of which no read has failed. -/
structure SoundAlike (s s' : Source (Watched σ)) : Prop extends SameButJournal s s' where
  sound : s.stream.Sound

/-- Such sources pull the same, in such states again, until a read fails. -/
theorem pullsAlike_sound : PullsAlike limit (fun _ _ => True) (SoundAlike (σ := σ)) where
  lookahead _ _ h := h.lookahead
  look _ _ h _ := ⟨⟨h.stream, rfl, h.exhausted, h.closed⟩, h.sound⟩
  note _ _ h _ _ := ⟨⟨h.stream, h.lookahead, h.exhausted, h.closed⟩, h.sound⟩
  pull n _ _ := by
    intro s s' h
    cases hexhausted : s.exhausted with
    | true =>
      rw [pull_of_exhausted hexhausted, pull_of_exhausted (h.exhausted.trans hexhausted)]
      exact .inr (.ok h)
    | false =>
      have hexhausted' : s'.exhausted = false := h.exhausted.trans hexhausted
      cases hread : InputStream.read n s.stream with
      | ok a stream =>
        rw [pull_of_answer hexhausted hread, pull_of_answer hexhausted' (by rw [h.stream, hread])]
        exact .inr (.ok ⟨⟨rfl, h.lookahead, rfl, h.closed⟩, (Watched.of_read hread).2.1.2 h.sound⟩)
      | error e stream => exact .inl ⟨e, _, pull_of_fault hexhausted hread, trivial⟩

/-- They close the same, unless closing fails. -/
theorem close_until :
    RunUntil (fun _ _ => True) SoundAlike (close (σ := Watched σ)) (close (σ := Watched σ)) := by
  intro s s' h
  cases hclosed : s.closed with
  | true =>
    rw [close_of_closed hclosed, close_of_closed (h.closed.trans hclosed)]
    exact .inr (.ok h)
  | false =>
    rw [close_of_open hclosed, close_of_open (h.closed.trans hclosed), onStream, onStream]
    simp only [h.stream]
    have hsound := (Watched.of_close s.stream).2.1.2 h.sound
    generalize InputStream.close s.stream = result at hsound ⊢
    cases result with
    | ok u stream => exact .inr (.ok ⟨⟨rfl, h.lookahead, h.exhausted, rfl⟩, hsound⟩)
    | error e stream => exact .inl ⟨e, _, rfl, trivial⟩

/-- Closing reads nothing. -/
theorem sound_close {s : Source (Watched σ)} (h : s.stream.Sound) :
    (Running.endState (Source.close s)).stream.Sound := by
  cases hclosed : s.closed with
  | true =>
    rw [close_of_closed hclosed]
    exact h
  | false =>
    rw [endState_close_of_open hclosed]
    exact (Watched.of_close s.stream).2.1.2 h

end Source

namespace Session

/-- No read of the stream has failed, as long as no action does. -/
theorem holdsUnlessFailing_sound :
    HoldsUnlessFailing fun t : ReaderSession (Watched σ) => t.reader.source.stream.Sound where
  perform {a t p} hp hnone ht := by
    have halike : SessionAlike
        (Reader.AlikeOver t.reader.settings.blockSize Source.SoundAlike) t t :=
      ⟨⟨⟨⟨rfl, rfl, rfl, rfl⟩, ht⟩, rfl, rfl, rfl, Nat.le_refl _⟩, rfl⟩
    have huntil := ReaderSession.perform_until (Reader.readUntil_over Source.pullsAlike_sound) a
      (fun _ _ _ h => h.onSource Source.close_until) (fun _ _ _ h => h.settings.symm) halike hp
    generalize ReaderSession.perform a t = performed at huntil
    cases huntil with
    | alike h => exact h.subject.reader.source.sound
    | stopped failure =>
      rw [hnone] at failure
      cases failure
  close {t} ht := by
    rw [ReaderSession.endState_close]
    exact Source.sound_close ht
  setJournal _ ht := ht

/-- **No error, no fault.**  If no step of a session was reported with an error, no read of the
stream has failed. -/
theorem sound_of_no_failure {steps : List (Step ReaderAction)} {t : ReaderSession (Watched σ)}
    {done : List (Report ReaderResult Position) × _} (hrun : run steps t = some done)
    (hnone : ∀ report ∈ done.1, report.failure = none) (ht : t.reader.source.stream.Sound) :
    done.2.reader.source.stream.Sound := holdsUnlessFailing_sound.run hrun hnone ht

end Session

end PlacedText
