import PlacedText.Reader.Cursor
import PlacedText.Running

/-!
# Draining a reader

A `Producer` takes items out of a reader step by step.  Draining takes all of them; what was taken
before an error is kept.  There are two producers: the characters of a cursor, and the lines of the
text.  A stream may give characters for ever, and then draining goes on for ever as well.
-/

namespace PlacedText

/-- Actions that drain a reader, which need not end. -/
abbrev DrainM (σ : Type) := PartialM ReadError (Reader σ)

/-- A way to take items out of a reader step by step: takes the next item, unless there is none, and
says where to go on. -/
abbrev Producer (σ κ α : Type) := κ → DrainM σ (Option (α × κ))

/-- The items that were taken, the error that ended the taking, if one did, and the reader
afterwards. -/
structure Drained (σ α : Type) where
  items : List α
  failure : Option ReadError
  reader : Reader σ

/-- The end of a draining that counts as one action: an error loses the items. -/
def Drained.toResult {σ α : Type} (d : Drained σ α) :
    EStateM.Result ReadError (Reader σ) (List α) :=
  match d.failure with
  | some e => .error e d.reader
  | none => .ok d.items d.reader

namespace Producer

variable {σ κ α : Type}

/-- Takes all items that are left; `taken` holds those taken before, latest first. -/
def drainOnto (p : Producer σ κ α) (taken : List α) (k : κ) (r : Reader σ) :
    Option (Drained σ α) := do
  match ← p k r with
  | .error e r' => some ⟨taken.reverse, some e, r'⟩
  | .ok none r' => some ⟨taken.reverse, none, r'⟩
  | .ok (some x) r' => p |>.drainOnto (x.1 :: taken) x.2 r'
partial_fixpoint

/-- Draining goes on after an item. -/
theorem drainOnto_of_item {p : Producer σ κ α} {k k' : κ} {r r' : Reader σ} {x : α}
    (h : p k r = some (.ok (some (x, k')) r')) (taken : List α) :
    p.drainOnto taken k r = p.drainOnto (x :: taken) k' r' := by
  rw [drainOnto, h]
  rfl

/-- Draining ends when there is no item. -/
theorem drainOnto_of_end {p : Producer σ κ α} {k : κ} {r r' : Reader σ}
    (h : p k r = some (.ok none r')) (taken : List α) :
    p.drainOnto taken k r = some ⟨taken.reverse, none, r'⟩ := by
  rw [drainOnto, h]
  rfl

/-- Takes all items that are left. -/
def drain (p : Producer σ κ α) (k : κ) (r : Reader σ) : Option (Drained σ α) := p.drainOnto [] k r

/-- Takes all items that are left, as an action: an error loses them. -/
def all (p : Producer σ κ α) (k : κ) : DrainM σ (List α) := fun r =>
  (p.drain k r).map Drained.toResult

end Producer

/-! ### Characters and lines -/

variable {σ : Type}

/-- Makes a string of characters; it is an error if there are none. -/
def Reader.makeString (chars : List PlacedChar) : ReaderM σ PlacedString :=
  match PlacedString.ofList? chars with
  | some s => pure s
  | none => throw .emptyString

variable [InputStream CodePoint σ]

/-- The characters that a cursor hands out. -/
def Producer.characters : Producer σ Cursor PlacedChar := fun k => .total k.next

/-- The rest of the line as a string.  At the end of the data there is none, which is an error. -/
def Reader.lineString : DrainM σ PlacedString := do
  let chars ← Producer.characters.all .inLine
  .total (makeString chars)

/-- The next line as a string, unless the data has ended. -/
def Reader.nextLine : DrainM σ (Option PlacedString) := do
  if ← .total Reader.atEnd then return none
  return some (← Reader.lineString)

/-- The lines that are left, each as a string. -/
def Producer.lines : Producer σ Unit PlacedString := fun _ => do
  return (← Reader.nextLine).map (·, ())

/-- All that is left as one string, unless nothing is. -/
def Reader.wholeText : DrainM σ (Option PlacedString) := do
  return PlacedString.ofList? (← Producer.characters.all .toEnd)

end PlacedText
