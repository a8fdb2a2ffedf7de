import PlacedText.Placed.String
import PlacedText.Reader.Error

/-!
# Comparing values

Values of different kinds can be compared for equality and kept together as keys.  A placed
character equals any placed character of the same value, and a placed string any placed string of
the same text, wherever they stand; both equal a plain text that is the same.  A placed character
never equals a placed string.  Lists are equal item by item.  Only positions have an order.

A value may fail to be made, as a string of no characters does.  Where several values are asked
for, they are made one by one, and each is put to use before the next one is made.
-/

namespace PlacedText

/-- The values that can be compared. -/
inductive Value where
  | char (c : PlacedChar)
  | string (s : PlacedString)
  | text (t : Text)
  | position (p : Position)
  | span (s : Span)
  | number (n : Int)
  | null
  /-- A list. -/
  | items (vs : List Value)

namespace Value

/-- An empty list. -/
def list : Value := .items []

mutual

/-- Equality of values. -/
def same : Value → Value → Bool
  | .char c, .char d => c.value = d.value
  | .char c, .text t => c.value = t
  | .text t, .char c => t = c.value
  | .string s, .string u => s.toText = u.toText
  | .string s, .text t => s.toText = t
  | .text t, .string s => t = s.toText
  | .text t, .text u => t = u
  | .position p, .position q => p = q
  | .span s, .span u => s = u
  | .number m, .number n => m = n
  | .null, .null => true
  | .items vs, .items ws => sameItems vs ws
  | _, _ => false

/-- Equality of the items of two lists, one by one. -/
def sameItems : List Value → List Value → Bool
  | [], [] => true
  | v :: vs, w :: ws => v.same w && sameItems vs ws
  | _, _ => false

end

/-- The name of a value's kind in messages. -/
def kindName : Value → Text
  | .char _ => PlacedText.text "PositionedChar"
  | .string _ => PlacedText.text "PositionedString"
  | .text _ => PlacedText.text "str"
  | .position _ => PlacedText.text "Position"
  | .span _ => PlacedText.text "Span"
  | .number _ => PlacedText.text "int"
  | .null => PlacedText.text "NoneType"
  | .items _ => PlacedText.text "list"

end Value

/-- Why values cannot be compared or kept as asked. -/
inductive ComparisonError where
  | noOrder (a b : Value)
  | notAKey (v : Value)
  /-- A string was to be made of no characters. -/
  | emptyString

/-- The message of an error. -/
def ComparisonError.message : ComparisonError → Text
  | .noOrder a b =>
    text "'<' not supported between instances of '" ++ a.kindName ++ text "' and '" ++
      b.kindName ++ text "'"
  | .notAKey v => text "unhashable type: '" ++ v.kindName ++ text "'"
  | .emptyString => EmptyString.message {}

/-- The answers to all questions about the order of two positions. -/
structure OrderAnswers where
  less : Bool
  atMost : Bool
  greater : Bool
  atLeast : Bool
  same : Bool
deriving DecidableEq

namespace Value

/-- A string of these characters, as a value. -/
def ofChars (cs : List PlacedChar) : Except ComparisonError Value :=
  match PlacedString.ofList? cs with
  | some s => .ok (.string s)
  | none => .error .emptyString

/-- Compares two values by order, which only positions have. -/
def order : Value → Value → Except ComparisonError OrderAnswers
  | .position p, .position q => .ok ⟨p < q, p ≤ q, q < p, q ≤ p, p = q⟩
  | a, b => .error (.noOrder a b)

/-! ### Keys -/

/-- What a value is looked up by when it is a key; equal values have the same.  A list is no
key. -/
inductive Key where
  | text (t : Text)
  | position (p : Position)
  | span (s : Span)
  | number (n : Int)
  | null
deriving DecidableEq

/-- The key of a value. -/
def key? : Value → Option Key
  | .char c => some (.text c.value)
  | .string s => some (.text s.toText)
  | .text t => some (.text t)
  | .position p => some (.position p)
  | .span s => some (.span s)
  | .number n => some (.number n)
  | .null => some .null
  | .items _ => none

/-- Whether equal values are found by the same key; there is no answer if they are not equal or no
keys. -/
def sameKey? (a b : Value) : Option Bool :=
  match a.key?, b.key? with
  | some k, some l => if a.same b then some (k = l) else none
  | _, _ => none

/-- Whether a value is among the keys kept. -/
def isKept (kept : List Value) (v : Value) : Except ComparisonError Bool :=
  match v.key? with
  | none => .error (.notAKey v)
  | some _ => .ok (kept.any (·.same v))

/-- Goes through values, as they are made, from an index on and keeps those that equal none kept
before.  Gives the indexes of those kept, and all that are kept, in order. -/
def keepFrom (i : Nat) (indexes : List Nat) (kept : List Value) :
    List (Except ComparisonError Value) → Except ComparisonError (List Nat × List Value)
  | [] => .ok (indexes.reverse, kept.reverse)
  | .error e :: _ => .error e
  | .ok v :: rest =>
    match isKept kept v with
    | .error e => .error e
    | .ok true => keepFrom (i + 1) indexes kept rest
    | .ok false => keepFrom (i + 1) (i :: indexes) (v :: kept) rest

/-- Keeps the values that equal none before them. -/
def distinct (made : List (Except ComparisonError Value)) :
    Except ComparisonError (List Nat × List Value) :=
  keepFrom 0 [] [] made

/-- Whether each of some values, as they are made, is among the keys kept. -/
def areKept (kept : List Value) (made : List (Except ComparisonError Value)) :
    Except ComparisonError (List Bool) :=
  made.mapM fun v => v.bind (isKept kept)

end Value

end PlacedText
