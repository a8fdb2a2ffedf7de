import PlacedText.Placed.Class
import PlacedText.Text.Quoted

/-!
# Surveys

A survey goes through a range of code points and finds the stretches that have a property, or the
code points that a map changes.
-/

namespace PlacedText.Survey

/-- Goes through `count` code points from `n` on.  `begun` is the start of a stretch that reaches
up to `n`, if there is one, and `found` holds the stretches before, latest first. -/
def stretchesFrom (p : CodePoint → Bool) (n : Nat) (begun : Option Nat)
    (found : List (Nat × Nat)) : (count : Nat) → List (Nat × Nat)
  | 0 => (match begun with
    | some first => (first, n - 1) :: found
    | none => found).reverse
  | count + 1 =>
    let holds := ((CodePoint.ofNat? n).map p).getD false
    match begun with
    | none => stretchesFrom p (n + 1) (if holds then some n else none) found count
    | some first =>
      if holds then stretchesFrom p (n + 1) begun found count
      else stretchesFrom p (n + 1) none ((first, n - 1) :: found) count

/-- The longest stretches of code points with a property, from one number to another. -/
def stretches (p : CodePoint → Bool) (first last : Nat) : List (Nat × Nat) :=
  stretchesFrom p first none [] (last + 1 - first)

/-- Goes through `count` code points from `n` on, after the changes already found, latest first. -/
def changesFrom (f : CodePoint → CodePoint) (n : Nat) (found : List (Nat × Nat)) :
    (count : Nat) → List (Nat × Nat)
  | 0 => found.reverse
  | count + 1 =>
    match CodePoint.ofNat? n with
    | some c =>
      if f c = c then changesFrom f (n + 1) found count
      else changesFrom f (n + 1) ((n, (f c).toNat) :: found) count
    | none => changesFrom f (n + 1) found count

/-- The code points that a map changes, with what it makes of them, from one number to another. -/
def changes (f : CodePoint → CodePoint) (first last : Nat) : List (Nat × Nat) :=
  changesFrom f first [] (last + 1 - first)

/-- A property of placed characters as one of code points. -/
def single (p : PlacedChar → Bool) (c : CodePoint) : Bool := p (.single .start c)

/-- Whether a code point stands for itself, without an escape, when it is quoted alone. -/
def isPlain (c : CodePoint) : Bool := Quoted.escape (Quoted.quoteFor [c]) c = [c]

end PlacedText.Survey
