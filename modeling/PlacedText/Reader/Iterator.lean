import PlacedText.Reader.Draining

/-!
# Lazy iterators

An iterator hands out characters or lines one at a time, whenever it is asked.  Any number of
iterators can be at work on one reader, between each other and between direct reads; each of them
goes on from where the reader then is.  An iterator that has met an error is finished.
-/

namespace PlacedText

/-- What an iterator hands out. -/
inductive Item where
  | char (c : PlacedChar)
  | string (s : PlacedString)
deriving DecidableEq

/-- An iterator between two steps. -/
inductive Iterator where
  /-- Hands out the characters of a cursor. -/
  | characters (k : Cursor)
  /-- Hands out lines. -/
  | lines
deriving DecidableEq

/-- What a number of steps of an iterator gave: the items, whether the iterator came to its end,
the error it met, the iterator afterwards, and the reader afterwards. -/
structure Advance (σ : Type) where
  items : List Item
  ended : Bool
  failure : Option ReadError
  iterator : Iterator
  reader : Reader σ

namespace Iterator

/-- An iterator that has nothing more to hand out. -/
def finished : Iterator := .characters .finished

variable {σ : Type} [InputStream CodePoint σ]

/-- Hands out the next item, unless the iterator has come to its end. -/
def next : Iterator → DrainM σ (Option (Item × Iterator))
  | .characters k => do return (← .total k.next).map fun (c, k) => (.char c, .characters k)
  | .lines => do return (← Reader.nextLine).map fun s => (.string s, .lines)

/-- Takes up to `times` more items, after those already taken, latest first. -/
def advanceOnto (taken : List Item) (i : Iterator) (r : Reader σ) :
    (times : Nat) → Option (Advance σ)
  | 0 => some ⟨taken.reverse, false, none, i, r⟩
  | times + 1 => do
    match ← i.next r with
    | .error e r' => some ⟨taken.reverse, false, some e, finished, r'⟩
    | .ok none r' => some ⟨taken.reverse, true, none, finished, r'⟩
    | .ok (some x) r' => advanceOnto (x.1 :: taken) x.2 r' times

/-- Takes up to so many items. -/
def advance (times : Nat) (i : Iterator) (r : Reader σ) : Option (Advance σ) :=
  advanceOnto [] i r times

end Iterator

end PlacedText
