import PlacedText.Session

/-!
# Sessions on a source

The actions on a source of text by itself, without a reader.
-/

namespace PlacedText

/-- An action on a source. -/
inductive SourceAction where
  | read (n : Int)
  | peek
  | atEnd
  | close
deriving DecidableEq

/-- The result of an action on a source. -/
inductive SourceResult where
  | text (t : Text)
  | flag (b : Bool)
  | nothing
deriving DecidableEq

namespace SourceSession

variable {σ β : Type} [InputStream CodePoint σ]

/-- Does an action of the source and puts its value into a result. -/
def doing (x : SourceM σ β) (result : β → SourceResult) (s : Source σ) :
    Performed (Source σ) SourceResult :=
  match x s with
  | .ok b s => .done (result b) s
  | .error e s => .failed (.fault e) s

/-- Does an action. -/
def perform (a : SourceAction) (s : Source σ) : Performed (Source σ) SourceResult :=
  match a with
  | .read n => doing (Source.read n) .text s
  | .peek => doing Source.peek .text s
  | .atEnd => doing Source.atEnd .flag s
  | .close => doing Source.close (fun _ => .nothing) s

/-- Closes the source. -/
def close : EStateM ReadError (Source σ) Unit := fun s =>
  match Source.close s with
  | .ok u s => .ok u s
  | .error e s => .error (.fault e) s

instance : Subject (Source σ) SourceAction SourceResult Bool where
  perform a s := some (perform a s)
  close := close
  journal s := s.journal
  setJournal j s := { s with journal := j }
  view s := s.closed

/-- Closing at the end of a block fails as closing the source does. -/
theorem closeError_eq (s : Source σ) :
    Session.closeError s = match Source.close s with
      | .ok _ _ => none
      | .error e _ => some (.fault e) := by
  rw [Session.closeError]
  cases h : Source.close s <;> simp only [Subject.close, close, h]

/-- It leaves the source closed. -/
theorem endState_close (s : Source σ) :
    Running.endState (Subject.close s) = Running.endState (Source.close s) := by
  show Running.endState (close s) = _
  rw [close]
  cases Source.close s <;> rfl

end SourceSession

end PlacedText
