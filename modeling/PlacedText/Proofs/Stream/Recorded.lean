import PlacedText.Running
import PlacedText.Stream.Basic

/-!
# Streams with a record

A *recorded* stream does what another stream does, and keeps a record of every read: the answer or
the fault that came of it.  Whoever has it in hand at the end of a run knows how often the stream
was asked, and how it ended each time.
-/

namespace PlacedText

/-- What came of a read. -/
abbrev ReadOutcome := Except Fault (Answer CodePoint)

/-- The read came to an answer without characters. -/
def ReadOutcome.IsEmpty : ReadOutcome → Prop
  | .ok a => a.toList = []
  | .error _ => False

instance : DecidablePred ReadOutcome.IsEmpty
  | .ok a => inferInstanceAs (Decidable (a.toList = []))
  | .error _ => inferInstanceAs (Decidable False)

/-- A stream with the outcomes of its reads. -/
structure Recorded (σ : Type) where
  stream : σ
  /-- What came of the reads, the latest first. -/
  reads : List ReadOutcome := []

namespace Recorded

variable {σ : Type}

/-- Puts the outcome of a read on record. -/
def read [InputStream CodePoint σ] (n : Nat) : EStateM Fault (Recorded σ) (Answer CodePoint) :=
  fun s =>
    match InputStream.read n s.stream with
    | .ok a stream => .ok a ⟨stream, .ok a :: s.reads⟩
    | .error e stream => .error e ⟨stream, .error e :: s.reads⟩

/-- Closing is not a read. -/
def close [InputStream CodePoint σ] : EStateM Fault (Recorded σ) Unit := fun s =>
  match InputStream.close s.stream with
  | .ok u stream => .ok u { s with stream }
  | .error e stream => .error e { s with stream }

instance [InputStream CodePoint σ] : InputStream CodePoint (Recorded σ) where
  read := read
  close := close

section Reading

variable [InputStream CodePoint σ] {n : Nat} {s s' : Recorded σ}

/-- An answer is put on record. -/
theorem reads_of_read_eq_ok {a : Answer CodePoint} (h : InputStream.read n s = .ok a s') :
    s'.reads = .ok a :: s.reads := by
  replace h : read n s = .ok a s' := h
  rw [read] at h
  cases hread : InputStream.read n s.stream with
  | ok b stream =>
    rw [hread] at h
    cases h
    rfl
  | error e stream =>
    rw [hread] at h
    cases h

/-- So is a fault. -/
theorem reads_of_read_eq_error {e : Fault} (h : InputStream.read n s = .error e s') :
    s'.reads = .error e :: s.reads := by
  replace h : read n s = .error e s' := h
  rw [read] at h
  cases hread : InputStream.read n s.stream with
  | ok b stream =>
    rw [hread] at h
    cases h
  | error e' stream =>
    rw [hread] at h
    cases h
    rfl

/-- Closing leaves the record as it is. -/
theorem reads_close (s : Recorded σ) :
    (Running.endState (InputStream.close s)).reads = s.reads := by
  show (Running.endState (close s)).reads = s.reads
  rw [close]
  cases InputStream.close s.stream <;> rfl

end Reading

instance [FiniteStream CodePoint σ] : FiniteStream CodePoint (Recorded σ) where
  supply s := FiniteStream.supply s.stream
  supply_read {n s s' a} h := by
    replace h : read n s = .ok a s' := h
    rw [read] at h
    cases hread : InputStream.read n s.stream with
    | ok b stream =>
      rw [hread] at h
      cases h
      exact FiniteStream.supply_read hread
    | error e stream =>
      rw [hread] at h
      cases h

end Recorded

end PlacedText
