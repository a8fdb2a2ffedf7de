import PlacedText.Fault

/-!
# Streams

A stream answers reads of at most so many units (code points or bytes) and can be closed.  The
class `InputStream` asks for no more than that, so that streams may answer with fewer units than
asked for, with more, with nothing, or with a fault, and closing one may fail.  A `FiniteStream`
also has a `supply`, a bound on the units it can still give; whatever drains a stream ends because
the supply runs out.
-/

namespace PlacedText

/-- The largest size that streams over memory and over bytes can be asked for. -/
def largestSize : Nat := 0x7FFFFFFFFFFFFFFF

/-- A stream's answer to a read. -/
inductive Answer (α : Type) where
  /-- These units came next; none means that the data has ended. -/
  | units (us : List α)
  /-- Nothing is ready. -/
  | notReady

/-- The units of an answer. -/
def Answer.toList {α : Type} : Answer α → List α
  | .units us => us
  | .notReady => []

/-- Streams of units that can be read and closed. -/
class InputStream (α : outParam Type) (σ : Type) where
  /-- Asks for at most so many units. -/
  read : Nat → EStateM Fault σ (Answer α)
  /-- Closes the stream. -/
  close : EStateM Fault σ Unit

/-- Streams that can give only so many more units. -/
class FiniteStream (α : outParam Type) (σ : Type) extends InputStream α σ where
  /-- A bound on the units still to come. -/
  supply : σ → Nat
  /-- Every unit given is taken from the supply. -/
  supply_read : ∀ {n : Nat} {s s' : σ} {a : Answer α},
    read n s = .ok a s' → a.toList.length + supply s' ≤ supply s

end PlacedText
