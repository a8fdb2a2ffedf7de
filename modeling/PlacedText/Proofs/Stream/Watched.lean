import PlacedText.Proofs.Stream.Recorded

/-!
# Streams that are watched

A *watched* stream does what another stream does, and keeps a list of the calls that were made on
it: every read with the size that was asked for and with what came of it, and every closing.  A
stream with a record (`Recorded`) tells how its reads ended; a watched one also tells how much was
asked for and when it was closed.
-/

namespace PlacedText

/-- A call that was made on a stream. -/
inductive StreamCall where
  | read (asked : Nat) (outcome : ReadOutcome)
  | close

namespace StreamCall

/-- The number of characters that the stream gave. -/
def given : StreamCall → Nat
  | .read _ (.ok a) => a.toList.length
  | .read _ (.error _) => 0
  | .close => 0

/-- The size that a read asked for. -/
def asked? : StreamCall → Option Nat
  | .read n _ => some n
  | .close => none

/-- The call was a read that failed. -/
def Failed : StreamCall → Prop
  | .read _ (.ok _) => False
  | .read _ (.error _) => True
  | .close => False

/-- Whether the call was a closing. -/
def isClose : StreamCall → Bool
  | .read _ _ => false
  | .close => true

end StreamCall

/-- A stream with the calls that were made on it. -/
structure Watched (σ : Type) where
  stream : σ
  /-- The calls, the latest first. -/
  calls : List StreamCall := []

namespace Watched

open Running

variable {σ : Type}

/-- The number of characters given in all reads. -/
def pulled (s : Watched σ) : Nat := s.calls.foldr (fun call n => call.given + n) 0

/-- The sizes asked for. -/
def sizes (s : Watched σ) : List Nat := s.calls.filterMap StreamCall.asked?

/-- No read has failed. -/
def Sound (s : Watched σ) : Prop := ∀ call ∈ s.calls, ¬call.Failed

/-- How often the stream was closed. -/
def closings (s : Watched σ) : Nat := s.calls.countP StreamCall.isClose

section Watching

variable [InputStream CodePoint σ]

/-- Reads and keeps the call. -/
def read (n : Nat) : EStateM Fault (Watched σ) (Answer CodePoint) := fun s =>
  match InputStream.read n s.stream with
  | .ok a stream => .ok a ⟨stream, .read n (.ok a) :: s.calls⟩
  | .error e stream => .error e ⟨stream, .read n (.error e) :: s.calls⟩

/-- Closes and keeps the call, whether or not it fails. -/
def close : EStateM Fault (Watched σ) Unit := fun s =>
  match InputStream.close s.stream with
  | .ok u stream => .ok u ⟨stream, .close :: s.calls⟩
  | .error e stream => .error e ⟨stream, .close :: s.calls⟩

instance : InputStream CodePoint (Watched σ) where
  read := read
  close := close

variable {n : Nat} {s s' : Watched σ}

/-- A watched stream answers as the stream does, and the answer is kept. -/
theorem exists_of_read_eq_ok {a : Answer CodePoint} (h : InputStream.read n s = .ok a s') :
    ∃ stream, InputStream.read n s.stream = .ok a stream ∧
      s' = ⟨stream, .read n (.ok a) :: s.calls⟩ := by
  replace h : read n s = .ok a s' := h
  rw [read] at h
  cases hread : InputStream.read n s.stream with
  | ok b stream =>
    rw [hread] at h
    cases h
    exact ⟨stream, rfl, rfl⟩
  | error e stream =>
    rw [hread] at h
    cases h

/-- It fails as the stream does, and the fault is kept. -/
theorem exists_of_read_eq_error {e : Fault} (h : InputStream.read n s = .error e s') :
    ∃ stream, InputStream.read n s.stream = .error e stream ∧
      s' = ⟨stream, .read n (.error e) :: s.calls⟩ := by
  replace h : read n s = .error e s' := h
  rw [read] at h
  cases hread : InputStream.read n s.stream with
  | ok b stream =>
    rw [hread] at h
    cases h
  | error e' stream =>
    rw [hread] at h
    cases h
    exact ⟨stream, rfl, rfl⟩

/-- Closing closes the stream, and the call is kept. -/
theorem endState_close (s : Watched σ) :
    endState (InputStream.close s) =
      ⟨endState (InputStream.close s.stream), .close :: s.calls⟩ := by
  show endState (close s) = _
  rw [close]
  cases InputStream.close s.stream <;> rfl

/-! ### What the calls tell -/

/-- A read that gives an answer adds to what was pulled, and is as sound as what was before. -/
theorem of_read {a : Answer CodePoint} (h : InputStream.read n s = .ok a s') :
    s'.pulled = s.pulled + a.toList.length ∧ (s'.Sound ↔ s.Sound) ∧ s'.sizes = n :: s.sizes := by
  obtain ⟨stream, -, rfl⟩ := exists_of_read_eq_ok h
  refine ⟨Nat.add_comm _ _, ?_, rfl⟩
  rw [Sound, Sound, List.forall_mem_cons]
  exact and_iff_right id

/-- A read that fails spoils the soundness. -/
theorem of_read_fault {e : Fault} (h : InputStream.read n s = .error e s') :
    ¬s'.Sound ∧ s'.sizes = n :: s.sizes := by
  obtain ⟨stream, -, rfl⟩ := exists_of_read_eq_error h
  exact ⟨fun hsound => hsound _ List.mem_cons_self trivial, rfl⟩

/-- Closing reads nothing. -/
theorem of_close (s : Watched σ) :
    (endState (InputStream.close s)).pulled = s.pulled ∧
      ((endState (InputStream.close s)).Sound ↔ s.Sound) ∧
      (endState (InputStream.close s)).sizes = s.sizes := by
  rw [endState_close]
  refine ⟨Nat.zero_add _, ?_, rfl⟩
  rw [Sound, Sound, List.forall_mem_cons]
  exact and_iff_right id

/-! ### Closings -/

/-- A read closes nothing. -/
theorem closings_of_read {a : Answer CodePoint} (h : InputStream.read n s = .ok a s') :
    s'.closings = s.closings := by
  obtain ⟨stream, -, rfl⟩ := exists_of_read_eq_ok h
  exact List.countP_cons_of_neg Bool.false_ne_true

/-- Nor does one that fails. -/
theorem closings_of_read_fault {e : Fault} (h : InputStream.read n s = .error e s') :
    s'.closings = s.closings := by
  obtain ⟨stream, -, rfl⟩ := exists_of_read_eq_error h
  exact List.countP_cons_of_neg Bool.false_ne_true

/-- Every closing is counted, whether or not it fails. -/
theorem closings_close (s : Watched σ) :
    (endState (InputStream.close s)).closings = s.closings + 1 := by
  rw [endState_close]
  exact List.countP_cons_of_pos rfl

end Watching

instance [FiniteStream CodePoint σ] : FiniteStream CodePoint (Watched σ) where
  supply s := FiniteStream.supply s.stream
  supply_read h := by
    obtain ⟨stream, hread, rfl⟩ := exists_of_read_eq_ok h
    exact FiniteStream.supply_read hread

end Watched

end PlacedText
