import PlacedText.Stream.Basic

/-!
# Buffered streams

A `Buffered` stream of bytes gives what another one gives.  It sets as many bytes aside as it is
asked for before it asks in its turn, and the system may not have so many: then the read fails, and
the other stream knows nothing of it.
-/

namespace PlacedText

/-- A stream of bytes that is read through a buffer. -/
structure Buffered (β : Type) where
  device : β
  /-- The most bytes that the system can set aside at once. -/
  room : Nat

namespace Buffered

variable {β : Type} [FiniteStream UInt8 β]

/-- Reads as the stream does, if there is room for what is asked for. -/
def read (n : Nat) : EStateM Fault (Buffered β) (Answer UInt8) := fun b =>
  if b.room < n then .error .outOfMemory b
  else
    match InputStream.read n b.device with
    | .ok answer device => .ok answer { b with device }
    | .error e device => .error e { b with device }

/-- Closes the stream. -/
def close : EStateM Fault (Buffered β) Unit := fun b =>
  match InputStream.close b.device with
  | .ok u device => .ok u { b with device }
  | .error e device => .error e { b with device }

instance : FiniteStream UInt8 (Buffered β) where
  read := read
  close := close
  supply b := FiniteStream.supply b.device
  supply_read {n b b' a} h := by
    unfold read at h
    split at h
    · cases h
    · split at h
      · next hread =>
        cases h
        exact FiniteStream.supply_read hread
      · cases h

variable {n : Nat} {b : Buffered β}

/-- Without room for what is asked for, the stream is not asked. -/
theorem read_of_room_lt (h : b.room < n) : InputStream.read n b = .error .outOfMemory b := by
  show read n b = _
  rw [read, if_pos h]

/-- With room for it, the stream answers. -/
theorem read_of_ok {a : Answer UInt8} {device : β} (h : n ≤ b.room)
    (hread : InputStream.read n b.device = .ok a device) :
    InputStream.read n b = .ok a { b with device } := by
  show read n b = _
  rw [read, if_neg (Nat.not_lt.2 h), hread]

/-- Or it fails. -/
theorem read_of_error {e : Fault} {device : β} (h : n ≤ b.room)
    (hread : InputStream.read n b.device = .error e device) :
    InputStream.read n b = .error e { b with device } := by
  show read n b = _
  rw [read, if_neg (Nat.not_lt.2 h), hread]

end Buffered

end PlacedText
