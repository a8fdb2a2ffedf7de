import PlacedText.Running
import PlacedText.Source

/-!
# The steps of a source

What an action of a source comes to, told by what the source is like and by what the actions it is
made of come to.  Whatever is known of the stream, facts about a source are put together from these
equations.
-/

namespace PlacedText.Source

open Running

variable {σ : Type} [InputStream CodePoint σ] {n : Nat} {s s' s'' : Source σ} {c : Text}

/-! ### Pulling and looking -/

/-- A source that is exhausted does not ask its stream. -/
theorem pull_of_exhausted (h : s.exhausted = true) (n : Nat) : pull n s = .ok [] s := by
  rw [pull, bind_apply, get_apply]
  simp only [h, ↓reduceIte]
  rfl

/-- Pulling gives the answer of the stream, and an empty one exhausts the source. -/
theorem pull_of_answer {a : Answer CodePoint} {stream : σ} (h : s.exhausted = false)
    (hread : InputStream.read n s.stream = .ok a stream) :
    pull n s = .ok a.toList { s with stream, exhausted := a.toList.isEmpty } := by
  obtain ⟨stream', lookahead, exhausted, closed, journal⟩ := s
  obtain rfl : exhausted = false := h
  rw [pull, bind_apply, get_apply]
  simp only [Bool.false_eq_true, ↓reduceIte, bind_apply, onStream, hread]
  cases a.toList.isEmpty with
  | true => rfl
  | false => rfl

/-- Pulling fails as the stream does. -/
theorem pull_of_fault {e : Fault} {stream : σ} (h : s.exhausted = false)
    (hread : InputStream.read n s.stream = .error e stream) :
    pull n s = .error e { s with stream } := by
  rw [pull, bind_apply, get_apply]
  simp only [h, Bool.false_eq_true, ↓reduceIte, bind_apply, onStream, hread]

/-- Looking with nothing looked at before pulls one character. -/
theorem peek_of_pull (hahead : s.lookahead = []) (hpull : pull 1 s = .ok c s') :
    peek s = .ok c { s' with lookahead := c } := by
  rw [peek, bind_apply, get_apply]
  simp only [hahead, List.isEmpty_nil, ↓reduceIte, bind_apply, hpull]
  rfl

/-- What was looked at before is shown again. -/
theorem peek_of_lookahead (h : s.lookahead ≠ []) : peek s = .ok s.lookahead s := by
  rw [peek, bind_apply, get_apply]
  simp only [List.isEmpty_eq_false_iff.2 h, Bool.false_eq_true, ↓reduceIte]
  rfl

/-- The data has ended if looking shows nothing. -/
theorem atEnd_of_peek (h : peek s = .ok c s') : atEnd s = .ok c.isEmpty s' := by
  rw [atEnd, bind_apply, h]
  rfl

/-- Only an exhausted source has nothing to show. -/
theorem exhausted_of_atEnd (h : atEnd s = .ok true s') : s'.exhausted = true := by
  obtain ⟨c, s₁, hpeek, hc⟩ := bind_eq_ok_iff.1 h
  have hnil : c.isEmpty = true := (EStateM.Result.ok.inj hc).1
  obtain rfl : s₁ = s' := (EStateM.Result.ok.inj hc).2
  by_cases hahead : s.lookahead = []
  · rw [peek, bind_apply, get_apply] at hpeek
    simp only [hahead, List.isEmpty_nil, ↓reduceIte] at hpeek
    obtain ⟨a, s₂, hpull, hlook⟩ := bind_eq_ok_iff.1 hpeek
    cases hexhausted : s.exhausted with
    | true =>
      rw [pull_of_exhausted hexhausted] at hpull
      cases hpull
      cases hlook
      exact hexhausted
    | false =>
      cases hread : InputStream.read 1 s.stream with
      | ok answer stream =>
        rw [pull_of_answer hexhausted hread] at hpull
        cases hpull
        cases hlook
        exact hnil
      | error e stream =>
        rw [pull_of_fault hexhausted hread] at hpull
        cases hpull
  · rw [peek_of_lookahead hahead] at hpeek
    cases hpeek
    exact absurd (List.isEmpty_iff.1 hnil) hahead

/-! ### Reading -/

/-- Nothing more is gathered if nothing more is wanted. -/
theorem gather_zero (parts : List Text) (s : Source σ) :
    gather 0 parts s = .ok parts.reverse.flatten s := by
  rw [gather, dif_pos rfl]
  rfl

/-- Gathering ends when a pull gives nothing. -/
theorem gather_of_pull_nil (hn : 0 < n) (hpull : pull n s = .ok [] s') (parts : List Text) :
    gather n parts s = .ok parts.reverse.flatten s' := by
  rw [gather, dif_neg (Nat.ne_of_gt hn), bind_apply, hpull]
  rfl

/-- Gathering goes on after a pull that gives something. -/
theorem gather_of_pull (hn : 0 < n) (hpull : pull n s = .ok c s') (hc : c ≠ [])
    (parts : List Text) : gather n parts s = gather (n - c.length) (c :: parts) s' := by
  rw [gather, dif_neg (Nat.ne_of_gt hn), bind_apply, hpull]
  simp only [dif_neg hc]

/-- Reading with nothing looked at gathers. -/
theorem readUpTo_of_lookahead_nil (hn : 0 < n) (h : s.lookahead = []) :
    readUpTo n s = gather n [] s := by
  rw [readUpTo, if_neg (Nat.ne_of_gt hn), bind_apply, get_apply]
  simp only [h, List.isEmpty_nil, ↓reduceIte]

/-- What was looked at is read first, and counts as one character. -/
theorem readUpTo_of_lookahead (hn : 0 < n) (h : s.lookahead ≠ []) :
    readUpTo n s = gather (n - 1) [s.lookahead] { s with lookahead := [] } := by
  rw [readUpTo, if_neg (Nat.ne_of_gt hn), bind_apply, get_apply]
  simp only [List.isEmpty_eq_false_iff.2 h, Bool.false_eq_true, ↓reduceIte, bind_apply,
    modify_apply]

/-- One character is all that was looked at, however long that is. -/
theorem readUpTo_one_of_lookahead (h : s.lookahead ≠ []) :
    readUpTo 1 s = .ok s.lookahead { s with lookahead := [] } := by
  rw [readUpTo_of_lookahead Nat.one_pos h, gather_zero, List.reverse_singleton,
    List.flatten_singleton]

/-! ### Blocks -/

/-- A block that does not end in a carriage return is left as it is. -/
theorem readBlock_of_ne_return (hread : readUpTo n s = .ok c s')
    (hreturn : c.getLast? ≠ some .carriageReturn) : readBlock n s = .ok c s' := by
  rw [readBlock, bind_apply, hread]
  simp only [if_neg hreturn]
  rfl

/-- So is one that ends in a carriage return if no line feed is next. -/
theorem readBlock_of_ne_feed {shown : Text} (hread : readUpTo n s = .ok c s')
    (hreturn : c.getLast? = some .carriageReturn) (hpeek : peek s' = .ok shown s'')
    (hfeed : shown ≠ [.lineFeed]) : readBlock n s = .ok c s'' := by
  rw [readBlock, bind_apply, hread]
  simp only [if_pos hreturn, bind_apply, hpeek, if_neg hfeed]
  rfl

/-- A line feed that is next comes with the block. -/
theorem readBlock_of_feed (hread : readUpTo n s = .ok c s')
    (hreturn : c.getLast? = some .carriageReturn) (hpeek : peek s' = .ok [.lineFeed] s'')
    (hlookahead : s''.lookahead = [.lineFeed]) :
    readBlock n s = .ok (c ++ [.lineFeed]) { s'' with lookahead := [] } := by
  have hone : readUpTo 1 s'' = .ok [.lineFeed] { s'' with lookahead := [] } := by
    rw [readUpTo_one_of_lookahead (by rw [hlookahead]; exact List.cons_ne_nil _ _), hlookahead]
  rw [readBlock, bind_apply, hread]
  simp only [if_pos hreturn, bind_apply, hpeek, ↓reduceIte, hone]
  rfl

/-! ### Faults -/

variable {e : Fault}

/-- Looking with nothing looked at before fails as pulling does. -/
theorem peek_of_pull_fault (hahead : s.lookahead = []) (hpull : pull 1 s = .error e s') :
    peek s = .error e s' := by
  rw [peek, bind_apply, get_apply]
  simp only [hahead, List.isEmpty_nil, ↓reduceIte, bind_apply, hpull]

/-- Asking for the end fails as looking does. -/
theorem atEnd_of_peek_fault (hpeek : peek s = .error e s') : atEnd s = .error e s' := by
  rw [atEnd, bind_apply, hpeek]

/-- Gathering fails with the first pull that does, and gives nothing of what it had. -/
theorem gather_of_pull_fault (hn : 0 < n) (hpull : pull n s = .error e s') (parts : List Text) :
    gather n parts s = .error e s' := by
  rw [gather, dif_neg (Nat.ne_of_gt hn), bind_apply, hpull]

/-- A block fails as the reading does. -/
theorem readBlock_of_fault (hread : readUpTo n s = .error e s') : readBlock n s = .error e s' := by
  rw [readBlock, bind_apply, hread]

/-- A block that ends in a carriage return fails as the look behind it does. -/
theorem readBlock_of_peek_fault (hread : readUpTo n s = .ok c s')
    (hreturn : c.getLast? = some .carriageReturn) (hpeek : peek s' = .error e s'') :
    readBlock n s = .error e s'' := by
  rw [readBlock, bind_apply, hread]
  simp only [if_pos hreturn, bind_apply, hpeek]

/-! ### Closing -/

/-- A closed source is left as it is. -/
theorem close_of_closed (h : s.closed = true) : close s = .ok () s := by
  rw [close, bind_apply, get_apply]
  simp only [h, ↓reduceIte]
  rfl

/-- Closing an open source comes to what closing its stream does, and the source is closed either
way. -/
theorem close_of_open (h : s.closed = false) :
    close s =
      onStream InputStream.close
        { s with closed := true, journal := s.journal.note .closing } := by
  rw [close, bind_apply, get_apply]
  simp only [h, Bool.false_eq_true, ↓reduceIte]
  rfl

omit [InputStream CodePoint σ] in
/-- An action on the stream changes only the stream. -/
theorem endState_onStream {α : Type} (x : EStateM Fault σ α) (s : Source σ) :
    endState (onStream x s) = { s with stream := endState (x s.stream) } := by
  rw [onStream]
  cases x s.stream <;> rfl

/-- The source after its stream has been closed, or could not be. -/
theorem endState_close_of_open (h : s.closed = false) :
    endState (close s) =
      { s with
        closed := true
        journal := s.journal.note .closing
        stream := endState (InputStream.close s.stream) } := by
  rw [close_of_open h, endState_onStream]

/-- The source is open, and its stream fails when it is closed. -/
def CloseFails (e : Fault) (s : Source σ) : Prop :=
  s.closed = false ∧ ∃ stream, InputStream.close s.stream = .error e stream

/-- Closing fails only so. -/
theorem closeFails_of_close {e : Fault} (h : close s = .error e s') : s.CloseFails e := by
  cases hclosed : s.closed with
  | true =>
    rw [close_of_closed hclosed] at h
    cases h
  | false =>
    rw [close_of_open hclosed, onStream] at h
    refine ⟨hclosed, ?_⟩
    cases hclose : InputStream.close s.stream with
    | ok u stream =>
      simp only [hclose] at h
      cases h
    | error e' stream =>
      simp only [hclose] at h
      cases h
      exact ⟨stream, rfl⟩

/-- What was looked at stays. -/
@[simp]
theorem lookahead_close (s : Source σ) : (endState (close s)).lookahead = s.lookahead := by
  cases h : s.closed with
  | true => rw [close_of_closed h]; rfl
  | false => rw [endState_close_of_open h]

/-- Closing does not end the data. -/
@[simp]
theorem exhausted_close (s : Source σ) : (endState (close s)).exhausted = s.exhausted := by
  cases h : s.closed with
  | true => rw [close_of_closed h]; rfl
  | false => rw [endState_close_of_open h]

end PlacedText.Source
