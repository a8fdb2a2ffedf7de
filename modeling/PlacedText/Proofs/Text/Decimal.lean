import Mathlib.Algebra.Group.Nat.Defs
import PlacedText.Text.Decimal

/-!
# Reading numbers back

`numberOf` is the number that a run of digits stands for in a base.  It undoes the hexadecimal
digits of a number that fits into their width (`numberOf_hexDigits`) and the decimal digits of every
number (`Decimal.numberOf_ofNat`).

`Decimal.readInt?` takes an integer from the front of a text and leaves what stands behind it.  It
reads the decimal form of every integer back (`Decimal.readInt?_ofInt_append`), provided that no
digit stands behind it, for that would belong to the number.
-/

namespace PlacedText

/-! ### Digits in a base -/

/-- The number that a digit stands for. -/
def digitValue (c : CodePoint) : Nat := if c.toNat < 0x3A then c.toNat - 0x30 else c.toNat - 0x57

theorem digitValue_digit {n : Nat} (h : n < 16) : digitValue (digit n h) = n := by
  unfold digit
  split
  · next hten =>
    show (if 0x30 + n < 0x3A then 0x30 + n - 0x30 else 0x30 + n - 0x57) = n
    rw [if_pos (by omega), Nat.add_sub_cancel_left]
  · next hten =>
    show (if 0x57 + n < 0x3A then 0x57 + n - 0x30 else 0x57 + n - 0x57) = n
    rw [if_neg (by omega), Nat.add_sub_cancel_left]

/-- The number that digits stand for in a base, most significant first. -/
def numberOf (base : Nat) (ds : Text) : Nat := ds.foldl (fun n d => base * n + digitValue d) 0

theorem numberOf_concat (base : Nat) (ds : Text) {n : Nat} (h : n < 16) :
    numberOf base (ds ++ [digit n h]) = base * numberOf base ds + n := by
  unfold numberOf
  rw [List.foldl_append, List.foldl_cons, List.foldl_nil, digitValue_digit]

theorem length_hexDigits (width n : Nat) : (hexDigits width n).length = width := by
  induction width generalizing n with
  | zero => rfl
  | succ width ih => rw [hexDigits, List.length_append, ih, List.length_singleton]

/-- Hexadecimal digits of a width stand for the number they were made of, if it fits. -/
theorem numberOf_hexDigits {width n : Nat} (h : n < 16 ^ width) :
    numberOf 16 (hexDigits width n) = n := by
  induction width generalizing n with
  | zero =>
    obtain rfl : n = 0 := by omega
    rfl
  | succ width ih =>
    have hquotient : n / 16 < 16 ^ width := by
      rw [Nat.pow_succ] at h
      omega
    rw [hexDigits, numberOf_concat, ih hquotient]
    omega

namespace Decimal

/-! ### Numbers in front of a text -/

/-- Whether a code point is one of the digits `0` to `9`. -/
def isDigit (c : CodePoint) : Bool := 0x30 ≤ c.toNat && c.toNat ≤ 0x39

theorem isDigit_iff {c : CodePoint} : isDigit c = true ↔ 0x30 ≤ c.toNat ∧ c.toNat ≤ 0x39 := by
  unfold isDigit
  rw [Bool.and_eq_true, decide_eq_true_iff, decide_eq_true_iff]

theorem isDigit_digit {n : Nat} (h : n < 16) (hten : n < 10) : isDigit (digit n h) = true := by
  unfold digit
  rw [if_pos hten, isDigit_iff]
  show 0x30 ≤ 0x30 + n ∧ 0x30 + n ≤ 0x39
  omega

theorem ofNat_ne_nil (n : Nat) : ofNat n ≠ [] := by
  unfold ofNat
  split <;> simp

/-- The decimal form of a number holds digits only. -/
theorem isDigit_of_mem_ofNat {n : Nat} {c : CodePoint} (hc : c ∈ ofNat n) : isDigit c = true := by
  fun_induction ofNat n with
  | case1 n hten =>
    obtain rfl := List.mem_singleton.1 hc
    exact isDigit_digit _ hten
  | case2 n hten ih =>
    rcases List.mem_append.1 hc with hc | hc
    · exact ih hc
    · obtain rfl := List.mem_singleton.1 hc
      exact isDigit_digit _ (Nat.mod_lt n (by decide))

/-- The decimal form of a number stands for that number. -/
theorem numberOf_ofNat (n : Nat) : numberOf 10 (ofNat n) = n := by
  fun_induction ofNat n with
  | case1 n hten =>
    show 10 * 0 + digitValue (digit n _) = n
    rw [digitValue_digit, Nat.mul_zero, Nat.zero_add]
  | case2 n hten ih =>
    rw [numberOf_concat, ih]
    omega

/-- A number in front of this text ends there: the text does not go on with a digit. -/
def EndsNumber (rest : Text) : Prop := ∀ c ∈ rest.head?, isDigit c = false

theorem endsNumber_nil : EndsNumber [] := nofun

theorem endsNumber_cons {c : CodePoint} (h : isDigit c = false) (rest : Text) :
    EndsNumber (c :: rest) := by
  intro d hd
  obtain rfl := Option.some.inj hd
  exact h

theorem EndsNumber.takeWhile_eq_nil {rest : Text} (h : EndsNumber rest) :
    rest.takeWhile isDigit = [] := by
  cases rest with
  | nil => rfl
  | cons c rest => rw [List.takeWhile_cons_of_neg (by simp [h c rfl])]

theorem EndsNumber.dropWhile_eq {rest : Text} (h : EndsNumber rest) :
    rest.dropWhile isDigit = rest := by
  cases rest with
  | nil => rfl
  | cons c rest => rw [List.dropWhile_cons_of_neg (by simp [h c rfl])]

/-- The number at the front of a text, as long as its digits go on, and the text behind it. -/
def readNat? (t : Text) : Option (Nat × Text) :=
  if t.takeWhile isDigit = [] then none
  else some (numberOf 10 (t.takeWhile isDigit), t.dropWhile isDigit)

theorem readNat?_ofNat_append (n : Nat) {rest : Text} (h : EndsNumber rest) :
    readNat? (ofNat n ++ rest) = some (n, rest) := by
  have hdigits : ∀ c ∈ ofNat n, isDigit c = true := fun _ => isDigit_of_mem_ofNat
  have htake : (ofNat n ++ rest).takeWhile isDigit = ofNat n := by
    rw [List.takeWhile_append_of_pos hdigits, h.takeWhile_eq_nil, List.append_nil]
  have hdrop : (ofNat n ++ rest).dropWhile isDigit = rest := by
    rw [List.dropWhile_append_of_pos hdigits, h.dropWhile_eq]
  unfold readNat?
  rw [htake, hdrop, if_neg (ofNat_ne_nil n), numberOf_ofNat]

/-- The integer at the front of a text, and the text behind it. -/
def readInt? : Text → Option (Int × Text)
  | [] => none
  | c :: t =>
    if c = .ofChar '-' then (readNat? t).map fun (n, rest) => (-(n : Int), rest)
    else (readNat? (c :: t)).map fun (n, rest) => ((n : Int), rest)

/-- **Integers are read back.** -/
theorem readInt?_ofInt_append (i : Int) {rest : Text} (h : EndsNumber rest) :
    readInt? (ofInt i ++ rest) = some (i, rest) := by
  cases i with
  | ofNat n =>
    obtain ⟨c, ds, hn⟩ := List.exists_cons_of_ne_nil (ofNat_ne_nil n)
    -- A digit comes first, so there is no sign to read.
    have hc : c ≠ .ofChar '-' := by
      rintro rfl
      have : isDigit (.ofChar '-') = true := isDigit_of_mem_ofNat (n := n) (by simp [hn])
      exact absurd this (by decide)
    have hread := readNat?_ofNat_append n h
    rw [hn, List.cons_append] at hread
    show readInt? (ofNat n ++ rest) = some ((n : Int), rest)
    rw [hn, List.cons_append, readInt?, if_neg hc, hread]
    rfl
  | negSucc n =>
    show readInt? (.ofChar '-' :: (ofNat (n + 1) ++ rest)) = some (-((n + 1 : Nat) : Int), rest)
    rw [readInt?, if_pos rfl, readNat?_ofNat_append (n + 1) h]
    rfl

/-- The `-` before an integer is its sign, also if another one stands before it. -/
example : readInt? (text "-20:-3") = some (-20, text ":-3") := by decide

end Decimal

end PlacedText
