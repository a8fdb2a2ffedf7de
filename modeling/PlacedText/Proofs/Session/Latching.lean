import PlacedText.Proofs.Reader.Latching
import PlacedText.Proofs.Session.Trail

/-!
# The end of the data, session by session

The main statement, `end_of_data_latches`, is about all streams and all sessions, on a reader or on
a source by itself: after the first empty answer the stream is not read again, and after the data
has once been said to have ended it is said so for ever, at the same place.
-/

namespace PlacedText

variable {σ : Type} [InputStream CodePoint σ]

namespace SourceSession

variable {I : σ → Bool → Prop}

omit [InputStream CodePoint σ] in
/-- The subject of an action that runs an action of the source is where that one ended. -/
theorem subject_doing {β : Type} (x : SourceM σ β) (result : β → SourceResult) (s : Source σ) :
    (doing x result s).subject = Running.endState (x s) := by
  rw [doing]
  cases x s <;> rfl

/-- A property of the stream that asking and closing keep is kept by whatever a session does. -/
theorem covers_has (hI : Asking I) :
    Session.Covers fun s s' : Source σ => s.Has I → s'.Has I where
  refl _ h := h
  trans h h' := h' ∘ h
  perform {a s p} hp h := by
    obtain rfl : perform a s = p := Option.some.inj hp
    cases a with
    | read n =>
      rw [perform, subject_doing]
      exact Source.readUpTo_keeps hI.toAnswering _ h
    | peek =>
      rw [perform, subject_doing]
      exact Source.peek_keeps hI.toAnswering h
    | atEnd =>
      rw [perform, subject_doing]
      exact Source.atEnd_keeps hI.toAnswering h
    | close =>
      rw [perform, subject_doing]
      exact Source.close_keeps hI h
  close s h := by
    rw [endState_close]
    exact Source.close_keeps hI h
  setJournal _ _ h := h

/-- Nothing that a session does gives a spent source anything. -/
theorem covers_spent : Session.Covers fun s s' : Source σ => s.Spent → s'.Spent where
  refl _ h := h
  trans h h' := h' ∘ h
  perform {a s p} hp h := by
    obtain rfl : perform a s = p := Option.some.inj hp
    cases a with
    | read n =>
      rw [perform, subject_doing, h.read]
      exact h
    | peek =>
      rw [perform, subject_doing, h.peek]
      exact h
    | atEnd =>
      rw [perform, subject_doing, h.atEnd]
      exact h
    | close =>
      rw [perform, subject_doing]
      exact h.close
  close s h := by
    rw [endState_close]
    exact h.close
  setJournal _ _ h := ⟨h.lookahead, h.exhausted⟩

end SourceSession

/-- **The end of the data is final.**  Take any stream, which may answer with nothing, with more
than it was asked for, or fail, and go on each time; and any session on it, with any blocks and
iterators, and with closing anywhere.  Put its reads on record.

When the session is over, no read but the last one came to an empty answer.  And once a reader has
said that the data has ended, it says so after any further steps, closing included; looking, reading
and taking in are then errors that say where a further character would stand, which is the place
where the end was first met.  A source that has said so gives nothing any more. -/
theorem end_of_data_latches (stream : σ) (journal : Journal) :
    (∀ (settings : Settings) (steps : List (Step ReaderAction)) ⦃done⦄,
      Session.run steps (ReaderSession.start ({ stream } : Recorded σ) settings journal) =
        some done → EndsOnce done.2.reader.source.stream.reads) ∧
    (∀ (steps : List (Step SourceAction)) ⦃done⦄,
      Session.run steps ({ stream := { stream }, journal } : Source (Recorded σ)) = some done →
        EndsOnce done.2.stream.reads) ∧
    (∀ (t : ReaderSession σ) ⦃r⦄, Reader.atEnd t.reader = .ok true r →
      ∀ (steps : List (Step ReaderAction)) ⦃done⦄,
        Session.run steps { t with reader := r } = some done →
          done.2.reader.EndsAt t.reader.next) ∧
    ∀ (s : Source σ) ⦃s'⦄, Source.atEnd s = .ok true s' →
      ∀ (steps : List (Step SourceAction)) ⦃done⦄, Session.run steps s' = some done →
        Source.atEnd done.2 = .ok true done.2 ∧ Source.peek done.2 = .ok [] done.2 ∧
          ∀ n, Source.read n done.2 = .ok [] done.2 := by
  refine ⟨fun settings steps done hrun => ?_, fun steps done hrun => ?_,
    fun t r hend steps done hrun => ?_, fun s s' hend steps done hrun => ?_⟩
  · obtain ⟨cs, htrail, -⟩ := Session.run_trail hrun
    exact htrail.endsOnce
  · have hlatched : done.2.Has Latched :=
      (SourceSession.covers_has asking_latched).run hrun (latched_fresh stream)
    exact hlatched.endsOnce
  · obtain ⟨cs, htrail, -⟩ := Session.run_trail hrun
    have hover : r.Over t.reader.next := Reader.over_of_atEnd hend
    exact (hover.trail htrail).endsAt
  · have hspent : done.2.Spent :=
      SourceSession.covers_spent.run hrun (Source.spent_of_atEnd hend)
    exact ⟨hspent.atEnd, hspent.peek, hspent.read⟩

/-- A stream that fails, then has nothing ready, and would go on after that.  A block that reads and
closes, an iterator that takes lines and single reads take turns; and a reader and a source that
meet the end at once are closed and asked again. -/
theorem end_of_data_latches_mixed :
    let stream : Script CodePoint :=
      { items := [.units (text "a\r"), .fail (text "broken"), .units (text "b"), .notReady,
          .units (text "x")] }
    let steps : List (Step ReaderAction) :=
      [.act (.keep (text "lines") .lines), .within [.act (.read 3), .act .peek],
        .act (.advance (text "lines") 2), .act .atEnd, .act .close, .act .precache]
    let ended : Script CodePoint := { items := [.units [], .units (text "x")] }
    let start : ReaderSession (Script CodePoint) := .start ended .default {}
    (∃ done, Session.run steps
        (ReaderSession.start ({ stream } : Recorded (Script CodePoint)) .default {}) = some done ∧
      EndsOnce done.2.reader.source.stream.reads) ∧
    (∃ done, Session.run [.act (.read 4), .act .atEnd, .act .close, .act (.read 1), .act .peek]
        ({ stream := { stream } } : Source (Recorded (Script CodePoint))) = some done ∧
      EndsOnce done.2.stream.reads) ∧
    (∃ r done, Reader.atEnd start.reader = .ok true r ∧
      Session.run [.act .close, .act (.read 1), .act .wholeText] { start with reader := r } =
        some done ∧
      done.2.reader.EndsAt .start) ∧
    ∃ s done, Source.atEnd start.reader.source = .ok true s ∧
      Session.run [.act .close, .act (.read 1), .act .peek] s = some done ∧
      Source.atEnd done.2 = .ok true done.2 := by
  intro stream steps ended start
  obtain ⟨hreader, hsource, -, -⟩ := end_of_data_latches stream {}
  obtain ⟨-, -, hover, hspent⟩ := end_of_data_latches ended {}
  refine ⟨?_, ?_, ?_, ?_⟩
  · obtain ⟨done, hrun⟩ := ReaderSession.run_ends steps
      (ReaderSession.start ({ stream } : Recorded (Script CodePoint)) .default {})
    exact ⟨done, hrun, hreader .default steps hrun⟩
  · obtain ⟨done, hrun⟩ := SourceSession.run_ends
      [.act (.read 4), .act .atEnd, .act .close, .act (.read 1), .act .peek]
      ({ stream := { stream } } : Source (Recorded (Script CodePoint)))
    exact ⟨done, hrun, hsource _ hrun⟩
  · obtain ⟨r, hend⟩ : ∃ r, Reader.atEnd start.reader = .ok true r := ⟨_, rfl⟩
    obtain ⟨done, hrun⟩ := ReaderSession.run_ends [.act .close, .act (.read 1), .act .wholeText]
      { start with reader := r }
    exact ⟨r, done, hend, hrun, hover start hend _ hrun⟩
  · obtain ⟨s, hend⟩ : ∃ s, Source.atEnd start.reader.source = .ok true s := ⟨_, rfl⟩
    obtain ⟨done, hrun⟩ := SourceSession.run_ends [.act .close, .act (.read 1), .act .peek] s
    exact ⟨s, done, hend, hrun, (hspent _ hend _ hrun).1⟩

end PlacedText
