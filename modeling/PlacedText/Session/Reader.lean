import PlacedText.Session

/-!
# Sessions on a reader

The actions on a reader, and the iterators that a session keeps under names.
-/

namespace PlacedText

/-- An action on a reader. -/
inductive ReaderAction where
  /-- Reads so many characters, one after the other. -/
  | read (times : Nat)
  /-- Reads so many characters and gives the last. -/
  | skip (times : Nat)
  | peek
  | precache
  | atEnd
  /-- Drains the characters of a cursor. -/
  | drain (k : Cursor)
  /-- Drains the lines. -/
  | lines
  | wholeText
  | lineString
  /-- Keeps an iterator under a name. -/
  | keep (name : Text) (i : Iterator)
  /-- Takes so many items from the iterator of a name. -/
  | advance (name : Text) (times : Nat)
  /-- Finishes the iterator of a name. -/
  | finish (name : Text)
  | settings
  | close
deriving DecidableEq

/-- The result of an action on a reader. -/
inductive ReaderResult where
  | char (c : PlacedChar)
  | chars (cs : List PlacedChar)
  | string (s : PlacedString)
  | strings (ss : List PlacedString)
  | items (is : List Item) (ended : Bool)
  | flag (b : Bool)
  | settings (s : Settings)
  | nothing

/-- A reader and the iterators kept under names, the latest first. -/
structure ReaderSession (σ : Type) where
  reader : Reader σ
  iterators : List (Text × Iterator) := []

namespace ReaderSession

variable {σ β : Type}

/-- A session at the start of a stream, with no iterators kept. -/
def start (stream : σ) (settings : Settings) (journal : Journal) : ReaderSession σ :=
  { reader := .ofSource { stream, journal } settings }

variable [InputStream CodePoint σ]

/-- What an action of the reader comes to, with its value put into a result. -/
def performed (t : ReaderSession σ) (result : β → ReaderResult) :
    EStateM.Result ReadError (Reader σ) β → Performed (ReaderSession σ) ReaderResult
  | .ok b reader => .done (result b) { t with reader }
  | .error e reader => .failed e { t with reader }

omit [InputStream CodePoint σ] in
/-- What becomes of a session in an action that always ends is told by the state it ends in. -/
theorem subject_performed (t : ReaderSession σ) (result : β → ReaderResult)
    (ended : EStateM.Result ReadError (Reader σ) β) :
    (t.performed result ended).subject = { t with reader := Running.endState ended } := by
  cases ended <;> rfl

/-- Does an action of the reader. -/
def doing (x : DrainM σ β) (result : β → ReaderResult) (t : ReaderSession σ) :
    Option (Performed (ReaderSession σ) ReaderResult) :=
  (x t.reader).map (t.performed result)

/-- Drains a producer; what it gave before an error is the result all the same. -/
def draining {κ : Type} (p : Producer σ κ β) (k : κ) (result : List β → ReaderResult)
    (t : ReaderSession σ) : Option (Performed (ReaderSession σ) ReaderResult) :=
  (p.drain k t.reader).map fun d =>
    ⟨some (result d.items), d.failure, { t with reader := d.reader }⟩

/-- Reads up to `times` characters, after those already read, latest first. -/
def readOnto (taken : List PlacedChar) (r : Reader σ) : (times : Nat) → Drained σ PlacedChar
  | 0 => ⟨taken.reverse, none, r⟩
  | times + 1 =>
    match Reader.read r with
    | .error e r' => ⟨taken.reverse, some e, r'⟩
    | .ok c r' => readOnto (c :: taken) r' times

/-- The iterator of a name; a name that was not given has none, which is as good as finished. -/
def iterator (t : ReaderSession σ) (name : Text) : Iterator :=
  (t.iterators.lookup name).getD .finished

/-- Keeps an iterator under a name, in place of an earlier one. -/
def keep (t : ReaderSession σ) (name : Text) (i : Iterator) : ReaderSession σ :=
  { t with iterators := (name, i) :: t.iterators.filter (·.1 ≠ name) }

/-- Does an action. -/
def perform (a : ReaderAction) (t : ReaderSession σ) :
    Option (Performed (ReaderSession σ) ReaderResult) :=
  match a with
  | .read times =>
    let d := readOnto [] t.reader times
    some ⟨some (.chars d.items), d.failure, { t with reader := d.reader }⟩
  | .skip times =>
    let d := readOnto [] t.reader times
    some ⟨if d.failure.isSome then none else d.items.getLast?.map .char, d.failure,
      { t with reader := d.reader }⟩
  | .peek => doing (.total Reader.peek) .char t
  | .precache => doing (.total Reader.precache) (fun _ => .flag true) t
  | .atEnd => doing (.total Reader.atEnd) .flag t
  | .drain k => draining .characters k .chars t
  | .lines => draining .lines () .strings t
  | .wholeText => doing Reader.wholeText (fun s => (s.map .string).getD .nothing) t
  | .lineString => doing Reader.lineString .string t
  | .keep name i => some (.silent (t.keep name i))
  | .advance name times =>
    ((t.iterator name).advance times t.reader).map fun a =>
      ⟨some (.items a.items a.ended), a.failure,
        { t with reader := a.reader }.keep name a.iterator⟩
  | .finish name => some (.silent (t.keep name .finished))
  | .settings => some (.done (.settings t.reader.settings) t)
  | .close => doing (.total Reader.close) (fun _ => .nothing) t

/-- Closes the reader. -/
def close : EStateM ReadError (ReaderSession σ) Unit := fun t =>
  match Reader.close t.reader with
  | .ok u reader => .ok u { t with reader }
  | .error e reader => .error e { t with reader }

instance : Subject (ReaderSession σ) ReaderAction ReaderResult Position where
  perform := perform
  close := close
  journal t := t.reader.source.journal
  setJournal j t := { t with reader.source.journal := j }
  view t := t.reader.next

/-- Closing at the end of a block fails as closing the reader does. -/
theorem closeError_eq (t : ReaderSession σ) :
    Session.closeError t = match Reader.close t.reader with
      | .ok _ _ => none
      | .error e _ => some e := by
  rw [Session.closeError]
  cases h : Reader.close t.reader <;> simp only [Subject.close, close, h]

/-- It leaves the source closed, and all else as it is. -/
theorem endState_close (t : ReaderSession σ) :
    Running.endState (Subject.close t) =
      { t with reader.source := Running.endState (Source.close t.reader.source) } := by
  show Running.endState (close t) = _
  rw [close, Reader.close, Reader.onSource]
  cases Source.close t.reader.source <;> rfl

end ReaderSession

end PlacedText
