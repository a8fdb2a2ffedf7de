import PlacedText.Journal
import PlacedText.Stream.Basic

/-!
# Sources of text

A `Source` pulls characters out of a stream.  Reading a number of characters asks the stream again
and again until they are there, so that a short result means that the data has ended.  The first
empty answer ends the data for good: the stream is not asked again.  One answer can be looked at
before it is read.
-/

namespace PlacedText

/-- A stream of characters, the answer looked at beforehand, and what is known of the stream. -/
structure Source (σ : Type) where
  stream : σ
  /-- What was pulled to be looked at and is still to be read. -/
  lookahead : Text := []
  /-- Whether the stream has said that its data ended. -/
  exhausted : Bool := false
  closed : Bool := false
  journal : Journal := {}

/-- Actions on a source.  After a fault the source stays as far as the action got. -/
abbrev SourceM (σ : Type) := EStateM Fault (Source σ)

namespace Source

variable {σ α : Type}

/-- An action on the stream of a source. -/
def onStream (x : EStateM Fault σ α) : SourceM σ α := fun s =>
  match x s.stream with
  | .ok a stream => .ok a { s with stream }
  | .error e stream => .error e { s with stream }

/-- Notes an event in the journal. -/
def note (e : Event) : SourceM σ Unit :=
  modify fun s => { s with journal := s.journal.note e }

section Reading

variable [InputStream CodePoint σ]

/-- Asks the stream for at most `n` characters.  An answer without characters ends the data. -/
def pull (n : Nat) : SourceM σ Text := do
  if (← get).exhausted then return []
  let answer ← onStream (InputStream.read n)
  let characters := answer.toList
  if characters.isEmpty then modify fun s => { s with exhausted := true }
  return characters

/-- Looks at what comes next, which is nothing exactly at the end of the data. -/
def peek : SourceM σ Text := do
  if (← get).lookahead.isEmpty then
    let characters ← pull 1
    modify fun s => { s with lookahead := characters }
  return (← get).lookahead

/-- Whether the data has ended. -/
def atEnd : SourceM σ Bool := return (← peek).isEmpty

/-- Pulls until `n` more characters are there or the data has ended; `parts` holds what is there
already, latest first. -/
def gather (n : Nat) (parts : List Text) : SourceM σ Text := do
  if _ : n = 0 then return parts.reverse.flatten
  else
    let characters ← pull n
    if _ : characters = [] then return parts.reverse.flatten
    else gather (n - characters.length) (characters :: parts)
termination_by n
decreasing_by
  have := List.length_pos_iff.2 ‹¬characters = []›
  omega

/-- Reads `n` characters, or all that are left.  The lookahead is read first and counts as one
character. -/
def readUpTo (n : Nat) : SourceM σ Text := do
  if n = 0 then return []
  let lookahead := (← get).lookahead
  if lookahead.isEmpty then gather n []
  else
    modify fun s => { s with lookahead := [] }
    gather (n - 1) [lookahead]

/-- Reads as many characters as an integer says: none if it is not positive. -/
def read (n : Int) : SourceM σ Text := readUpTo n.toNat

/-- Reads `n` characters, or all that are left, and one more if that keeps a carriage return and
the line feed after it together. -/
def readBlock (n : Nat) : SourceM σ Text := do
  let block ← readUpTo n
  if block.getLast? = some .carriageReturn then
    if (← peek) = [.lineFeed] then
      return block ++ (← readUpTo 1)
  return block

/-- Closes the stream, once: the source counts as closed even if that fails. -/
def close : SourceM σ Unit := do
  if (← get).closed then return
  modify fun s => { s with closed := true }
  note .closing
  onStream InputStream.close

end Reading

end Source

end PlacedText
