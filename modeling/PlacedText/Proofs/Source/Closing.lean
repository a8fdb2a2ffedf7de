import PlacedText.Proofs.Reader.Fault
import PlacedText.Proofs.Source.Keeping
import PlacedText.Proofs.Stream.Watched

/-!
# How a source is closed

A source closes its stream when it is asked to, unless it has done so before.  What happens to a
source on the way from one state to another is told by whether it was asked to close, and by the
events that were reported on the way (`Source.ClosesTo`).  The ways can be put together: the source
is closed if it was so or was asked to close on one of them, its stream was closed as often as it
has become closed, and the journal has noted no more closings than that.
-/

namespace PlacedText

open Running

/-- How many closings a journal has noted. -/
def Journal.closings (j : Journal) : Nat := j.entries.count .closing

/-- Taking in notes no closing. -/
theorem Journal.closings_note_refill (j : Journal) (count : Nat) (place : Position) :
    (j.note (.refill count place)).closings = j.closings := by
  rw [note]
  split
  · exact List.count_cons_of_ne fun h => by cases h
  · rfl

/-- Closing is noted once, if it is noted. -/
theorem Journal.closings_note_closing_le (j : Journal) :
    (j.note .closing).closings ≤ j.closings + 1 := by
  rw [note]
  split
  · exact Nat.le_of_eq List.count_cons_self
  · exact Nat.le_succ _

namespace Source

variable {σ α : Type} {s s' s'' : Source (Watched σ)} {asked asked' : Bool}
  {noted noted' : List Event}

/-- From `s` to `s'`, where `asked` says whether the source was asked to close on the way, and the
events `noted` were taken out of its journal. -/
structure ClosesTo (s : Source (Watched σ)) (asked : Bool) (noted : List Event)
    (s' : Source (Watched σ)) : Prop where
  closed : s'.closed = (s.closed || asked)
  closings : s'.stream.closings + s.closed.toNat = s.stream.closings + s'.closed.toNat
  noted_le : noted.count .closing + s'.journal.closings + s.closed.toNat ≤
    s.journal.closings + s'.closed.toNat

namespace ClosesTo

/-- The closings and what was noted of them are as before. -/
theorem of_eq (hclosed : s'.closed = s.closed) (hclosings : s'.stream.closings = s.stream.closings)
    (hjournal : s'.journal.closings = s.journal.closings) : s.ClosesTo false [] s' where
  closed := by rw [hclosed, Bool.or_false]
  closings := by rw [hclosed, hclosings]
  noted_le := Nat.le_of_eq (by rw [hclosed, hjournal, List.count_nil, Nat.zero_add])

theorem refl (s : Source (Watched σ)) : s.ClosesTo false [] s := .of_eq rfl rfl rfl

theorem trans (h : s.ClosesTo asked noted s') (h' : s'.ClosesTo asked' noted' s'') :
    s.ClosesTo (asked || asked') (noted ++ noted') s'' where
  closed := by rw [h'.closed, h.closed, Bool.or_assoc]
  closings := by
    have hclosings := h.closings
    have hclosings' := h'.closings
    omega
  noted_le := by
    have hnoted := h.noted_le
    have hnoted' := h'.noted_le
    rw [List.count_append]
    omega

/-- The journal starts or stops. -/
theorem setRecording (s : Source (Watched σ)) (on : Bool) :
    s.ClosesTo false [] { s with journal := s.journal.setRecording on } := .of_eq rfl rfl rfl

/-- The events of the journal are taken out of it. -/
theorem cleared (s : Source (Watched σ)) :
    s.ClosesTo false s.journal.inOrder { s with journal := s.journal.cleared } where
  closed := (Bool.or_false _).symm
  closings := rfl
  noted_le := by
    show s.journal.entries.reverse.count .closing + 0 + s.closed.toNat ≤ _
    rw [List.count_reverse, Nat.add_zero]
    exact Nat.le_refl _

variable [InputStream CodePoint σ]

/-- Closing does so unless it was done before, and whether or not the stream lets itself be
closed. -/
theorem close (s : Source (Watched σ)) : s.ClosesTo true [] (endState (Source.close s)) := by
  cases hclosed : s.closed with
  | true =>
    -- Closing again changes nothing.
    rw [close_of_closed hclosed]
    have hrefl := ClosesTo.refl s
    exact ⟨(hclosed.trans (by rw [hclosed, Bool.or_true])), hrefl.closings, hrefl.noted_le⟩
  | false =>
    rw [endState_close_of_open hclosed]
    refine ⟨(Bool.or_true _).symm, ?_, ?_⟩
    · rw [Watched.closings_close, hclosed]
      rfl
    · have hnote := s.journal.closings_note_closing_le
      rw [List.count_nil, hclosed, Nat.zero_add]
      exact hnote

end ClosesTo

/-! ### The other actions -/

variable [InputStream CodePoint σ]

/-- Reading closes nothing. -/
theorem answering_closings (k : Nat) :
    Answering fun (stream : Watched σ) _ => stream.closings = k where
  answer h hread := (Watched.closings_of_read hread).trans h
  fault h hread := (Watched.closings_of_read_fault hread).trans h

/-- An action that settles, and keeps how often the stream was closed, closes nothing. -/
theorem ClosesTo.of_settles {x : SourceM (Watched σ) α} (hsettles : Settles s (x s))
    (hkeeps : ∀ k, Keeps (Has fun stream _ => stream.closings = k) x) :
    s.ClosesTo false [] (endState (x s)) := by
  have hbeside : Beside s (endState (x s)) := hsettles.beside
  exact .of_eq hbeside.closed (hkeeps _ rfl) (congrArg Journal.closings hbeside.journal)

theorem peek_closesTo (s : Source (Watched σ)) : s.ClosesTo false [] (endState (peek s)) :=
  .of_settles (peek_settles s) fun k => peek_keeps (answering_closings k)

theorem atEnd_closesTo (s : Source (Watched σ)) : s.ClosesTo false [] (endState (atEnd s)) :=
  .of_settles (atEnd_settles s) fun k => atEnd_keeps (answering_closings k)

theorem readUpTo_closesTo (s : Source (Watched σ)) (n : Nat) :
    s.ClosesTo false [] (endState (readUpTo n s)) :=
  .of_settles (readUpTo_settles s n) fun k => readUpTo_keeps (answering_closings k) n

theorem readBlock_closesTo (s : Source (Watched σ)) (n : Nat) :
    s.ClosesTo false [] (endState (readBlock n s)) :=
  .of_settles (readBlock_settles s n) fun k => readBlock_keeps (answering_closings k) n

end Source

end PlacedText
