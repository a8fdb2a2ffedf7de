import PlacedText.Stream.Basic

/-!
# Scripted streams

A `Script` is a stream whose answers are laid down beforehand: units, word that nothing is ready,
or a system error, one item after the other.  It keeps a record of what it was asked, and it goes
on answering after it is closed.
-/

namespace PlacedText

/-- One answer of a scripted stream. -/
inductive ScriptItem (α : Type) where
  | units (us : List α)
  | notReady
  | fail (message : Text)

/-- A stream that answers by a list of items. -/
structure Script (α : Type) where
  /-- The answers still to come. -/
  items : List (ScriptItem α)
  /-- Whether units are given whole even if there are more of them than asked for. -/
  overlong : Bool := false
  /-- The sizes asked for, the latest first. -/
  requests : List Nat := []
  /-- How often the stream was closed. -/
  closings : Nat := 0

namespace Script

variable {α : Type}

/-- The number of units in a list of items. -/
def unitCount : List (ScriptItem α) → Nat
  | [] => 0
  | .units us :: items => us.length + unitCount items
  | .notReady :: items => unitCount items
  | .fail _ :: items => unitCount items

/-- Answers with the first item.  Units that were not asked for stay in front, except in a stream
that gives them whole. -/
def read (n : Nat) : EStateM Fault (Script α) (Answer α) := fun s =>
  let s := { s with requests := n :: s.requests }
  match s.items with
  | [] => .ok (.units []) s
  | .notReady :: items => .ok .notReady { s with items }
  | .fail message :: items => .error (.system message) { s with items }
  | .units us :: items =>
    let rest := us.drop n
    if s.overlong || rest.isEmpty then .ok (.units us) { s with items }
    else .ok (.units (us.take n)) { s with items := .units rest :: items }

/-- Closing is only counted. -/
def close : EStateM Fault (Script α) Unit := modify fun s => { s with closings := s.closings + 1 }

instance : FiniteStream α (Script α) where
  read := read
  close := close
  supply s := unitCount s.items
  supply_read {n s s' a} h := by
    unfold read at h
    cases hi : s.items with
    | nil => simp only [hi] at h; cases h; simp [Answer.toList, unitCount]
    | cons item items =>
      cases item with
      | notReady => simp only [hi] at h; cases h; simp [Answer.toList, unitCount]
      | fail message => simp only [hi] at h; cases h
      | units us =>
        simp only [hi] at h
        split at h
        · cases h; simp [Answer.toList, unitCount]
        · cases h
          simp only [Answer.toList, unitCount, List.length_take, List.length_drop]
          omega

/-- An item is given whole if no more is asked for than it has. -/
theorem read_of_length_le {n : Nat} {us : List α} {items : List (ScriptItem α)} {s : Script α}
    (hitems : s.items = .units us :: items) (hlength : us.length ≤ n) :
    InputStream.read n s = .ok (.units us) { s with items, requests := n :: s.requests } := by
  show read n s = _
  rw [read]
  simp only [hitems, List.drop_of_length_le hlength, List.isEmpty_nil, Bool.or_true, ↓reduceIte]

end Script

end PlacedText
