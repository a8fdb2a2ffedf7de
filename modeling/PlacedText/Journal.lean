import PlacedText.Position

/-!
# The journal

A source notes when a block of characters is taken in and when its stream is closed, while the
journal is being kept.
-/

namespace PlacedText

/-- What a journal notes. -/
inductive Event where
  /-- A block of `count` characters was taken in, the first one at `place`. -/
  | refill (count : Nat) (place : Position)
  /-- The stream of a source is being closed. -/
  | closing
deriving DecidableEq

/-- The message of an event. -/
def Event.message : Event → Text
  | .refill count place =>
    text "refilling " ++ Decimal.ofNat count ++ text " chars at " ++ place.rawLabel
  | .closing => text "closing text source"

/-- The events noted so far, the latest first. -/
structure Journal where
  recording : Bool := false
  entries : List Event := []

namespace Journal

/-- Notes an event, while recording. -/
def note (e : Event) (j : Journal) : Journal :=
  if j.recording then { j with entries := e :: j.entries } else j

/-- Starts or stops recording. -/
def setRecording (on : Bool) (j : Journal) : Journal := { j with recording := on }

/-- The events in the order in which they happened. -/
def inOrder (j : Journal) : List Event := j.entries.reverse

/-- Forgets the events, and goes on recording if it did. -/
def cleared (j : Journal) : Journal := { j with entries := [] }

end Journal

end PlacedText
