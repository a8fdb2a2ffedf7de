import PlacedText.CodePoint

/-!
# Numbers in texts

Decimal digits for whole numbers of any size, and the fixed width hexadecimal digits that escapes
use.  A text that shows numbers to a person is refused if one of them has too many digits; it is
given exactly if none has (`showing_eq_ok_iff`).
-/

namespace PlacedText

/-- The digit `0` to `9`, then `a` to `f`, of a number below sixteen. -/
def digit (n : Nat) (h : n < 16) : CodePoint :=
  if n < 10 then ⟨0x30 + n, by omega⟩ else ⟨0x57 + n, by omega⟩

/-- The lowest `width` hexadecimal digits of a number, most significant first. -/
def hexDigits : (width : Nat) → Nat → Text
  | 0, _ => []
  | width + 1, n => hexDigits width (n / 16) ++ [digit (n % 16) (by omega)]

namespace Decimal

/-- The decimal digits of a number, most significant first, with no leading zero. -/
def ofNat (n : Nat) : Text :=
  if _ : n < 10 then [digit n (by omega)] else ofNat (n / 10) ++ [digit (n % 10) (by omega)]

/-- The decimal form of an integer: a minus sign before the digits of a negative one. -/
def ofInt : Int → Text
  | .ofNat n => ofNat n
  | .negSucc n => text "-" ++ ofNat (n + 1)

/-! ### How long a number may be -/

/-- The most digits that a number is shown with. -/
def maxDigits : Nat := 4300

/-- Whether an integer is short enough to be shown.  Its sign does not count. -/
def isShowable (i : Int) : Bool := (ofNat i.natAbs).length ≤ maxDigits

/-- A number is too long to be shown. -/
structure TooLong where
deriving DecidableEq

/-- The message of the error. -/
def TooLong.message (_ : TooLong) : Text :=
  text "Exceeds the limit (" ++ Decimal.ofNat maxDigits ++
    text " digits) for integer string conversion; use sys.set_int_max_str_digits() to increase" ++
    text " the limit"

/-- A text that shows these numbers, unless one of them is too long. -/
def showing (numbers : List Int) (t : Text) : Except TooLong Text :=
  if numbers.all isShowable then .ok t else .error {}

theorem showing_eq_ok_iff {numbers : List Int} {t u : Text} :
    showing numbers t = .ok u ↔ (∀ i ∈ numbers, isShowable i = true) ∧ t = u := by
  rw [showing, ← List.all_eq_true]
  split
  · next h =>
    rw [Except.ok.injEq]
    exact ⟨fun hu => ⟨h, hu⟩, fun hu => hu.2⟩
  · next h =>
    constructor
    · intro hu
      cases hu
    · intro hu
      exact absurd hu.1 h

end Decimal

end PlacedText
