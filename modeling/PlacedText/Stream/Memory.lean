import PlacedText.Stream.Basic

/-!
# Streams over memory

A `Memory` gives what it holds, in order and as much as asked for, until it is closed.
-/

namespace PlacedText

/-- Units held in memory, read from the front. -/
structure Memory (α : Type) where
  /-- The units not yet read. -/
  rest : List α
  closed : Bool := false
  /-- The fault of a read after closing. -/
  whenClosed : Fault

namespace Memory

variable {α : Type}

/-- Characters held in memory. -/
def ofText (t : Text) : Memory CodePoint := { rest := t, whenClosed := .textClosed }

/-- Bytes held in memory. -/
def ofBytes (b : Bytes) : Memory UInt8 := { rest := b, whenClosed := .bytesClosed }

/-- Gives the next `n` units, or all that are left. -/
def read (n : Nat) : EStateM Fault (Memory α) (Answer α) := fun m =>
  if largestSize < n then .error .oversized m
  else if m.closed then .error m.whenClosed m
  else .ok (.units (m.rest.take n)) { m with rest := m.rest.drop n }

/-- Closes the memory for reading. -/
def close : EStateM Fault (Memory α) Unit := modify fun m => { m with closed := true }

theorem length_rest_le_of_read {n : Nat} {m m' : Memory α} {a : Answer α}
    (h : read n m = .ok a m') : a.toList.length + m'.rest.length ≤ m.rest.length := by
  unfold read at h
  split at h
  · cases h
  · split at h
    · cases h
    · cases h
      simp only [Answer.toList, List.length_take, List.length_drop]
      omega

instance : FiniteStream α (Memory α) where
  read := read
  close := close
  supply m := m.rest.length
  supply_read := length_rest_le_of_read

end Memory

end PlacedText
