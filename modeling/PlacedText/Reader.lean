import PlacedText.Placed.String
import PlacedText.Reader.Error
import PlacedText.Settings
import PlacedText.Source

/-!
# The reader

A reader hands out the characters of a source one by one, each with its place.  It takes them in
block by block and queues them.  A carriage return and a line feed after it always come in one
block, so that placing a block needs to know nothing of the next one.
-/

namespace PlacedText

/-- A source and the characters taken from it that are still to be handed out. -/
structure Reader (σ : Type) where
  source : Source σ
  settings : Settings
  /-- The characters taken in and not yet handed out. -/
  queue : List PlacedChar := []
  /-- The place of the next character to be taken in. -/
  next : Position := .start

/-- Actions on a reader.  After an error the reader stays as far as the action got. -/
abbrev ReaderM (σ : Type) := EStateM ReadError (Reader σ)

namespace Reader

variable {σ α : Type}

/-- A reader at the start of a source. -/
def ofSource (source : Source σ) (settings : Settings) : Reader σ := { source, settings }

/-- An action on the source of a reader. -/
def onSource (x : SourceM σ α) : ReaderM σ α := fun r =>
  match x r.source with
  | .ok a source => .ok a { r with source }
  | .error e source => .error (.fault e) { r with source }

/-- Queues the characters of a block. -/
def enqueue (block : Text) : ReaderM σ Unit :=
  modify fun r =>
    let placed := place r.next block
    { r with queue := r.queue ++ placed.1, next := placed.2 }

section Reading

variable [InputStream CodePoint σ]

/-- Whether there are no more characters. -/
def atEnd : ReaderM σ Bool := do
  if (← get).queue.isEmpty then onSource Source.atEnd else return false

/-- Takes in the next block. -/
def refill : ReaderM σ Unit := do
  let r ← get
  let block ← onSource (Source.readBlock r.settings.blockSize)
  onSource (Source.note (.refill block.length r.next))
  enqueue block

/-- Sees to it that a character is queued, which is an error at the end of the data. -/
def precache : ReaderM σ Unit := do
  if (← get).queue.isEmpty then
    if ← onSource Source.atEnd then throw (.endOfData (← get).next)
    refill

/-- The next character, which stays where it is. -/
def peek : ReaderM σ PlacedChar := do
  precache
  match (← get).queue with
  | [] => throw .emptyQueue
  | c :: _ => return c

/-- Hands out the next character. -/
def read : ReaderM σ PlacedChar := do
  precache
  match (← get).queue with
  | [] => throw .emptyQueue
  | c :: queue =>
    modify fun r => { r with queue }
    return c

/-- Closes the stream of the source.  What has been taken in can still be read. -/
def close : ReaderM σ Unit := onSource Source.close

end Reading

end Reader

end PlacedText
