import PlacedText.CodePoint

/-!
# Sets and maps of code points

A property of code points is a table of runs in ascending order.  A run holds every `step`-th code
point from its first to its last, which suits the alphabets where capital and small letters
alternate.  A run also has an image: a map takes its first code point there and shifts the others
by the same distance.  Tables are searched by bisection.

The tables of this folder follow version 14.0 of the Unicode Character Database.
-/

namespace PlacedText.Unicode

/-- Every `step`-th code point from `first` to `last`, and the number that a map takes `first`
to. -/
structure Run where
  first : Nat
  last : Nat
  step : Nat
  image : Nat
deriving DecidableEq

/-- Whether a number belongs to a run. -/
def Run.holds (r : Run) (n : Nat) : Bool :=
  r.first ≤ n && n ≤ r.last && (n - r.first) % r.step = 0

/-- The runs of neighbouring code points with the given ends. -/
def blocks (ends : Array (Nat × Nat)) : Array Run :=
  ends.map fun (first, last) => ⟨first, last, 1, first⟩

/-- The runs with the given ends and steps. -/
def steps (rows : Array (Nat × Nat × Nat)) : Array Run :=
  rows.map fun (first, last, step) => ⟨first, last, step, first⟩

/-- The runs with the given ends, steps and images. -/
def shifts (rows : Array (Nat × Nat × Nat × Nat)) : Array Run :=
  rows.map fun (first, last, step, image) => ⟨first, last, step, image⟩

/-- The run that holds a number, among those from index `lo` to before `hi`.  The runs are in
ascending order. -/
def findRun (runs : Array Run) (n lo hi : Nat) : Option Run :=
  if _ : lo < hi then
    let middle := (lo + hi) / 2
    match runs[middle]? with
    | none => none
    | some r =>
      if n < r.first then findRun runs n lo middle
      else if r.last < n then findRun runs n (middle + 1) hi
      else if r.holds n then some r
      else none
  else none
termination_by hi - lo

/-- Whether a code point belongs to one of the runs. -/
def inRuns (runs : Array Run) (c : CodePoint) : Bool :=
  (findRun runs c.toNat 0 runs.size).isSome

/-- The image of a code point under the runs, which is itself off the runs. -/
def imageIn (runs : Array Run) (c : CodePoint) : CodePoint :=
  match findRun runs c.toNat 0 runs.size with
  | none => c
  | some r => (CodePoint.ofNat? (r.image + (c.toNat - r.first))).getD c

end PlacedText.Unicode
