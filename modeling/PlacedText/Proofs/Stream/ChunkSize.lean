import Mathlib.Algebra.Group.Nat.Defs
import PlacedText.Stream.Decoded

/-!
# The size of a chunk

However much is asked for, a chunk of bytes is never larger than a stream can count
(`chunkSize_le`).  The estimate is a double, so this is a fact about doubles: one that is less than
the double next to the largest size is less than that size itself once it is cut down to an integer.
The comparison is of exponents first, and a mantissa has 53 bits.
-/

namespace PlacedText.Decoded

open Float.Model.UnpackedFloat

/-- Shifting to the right makes no mantissa larger. -/
theorem mantissa_shiftRight_le (em : ExtendedMantissa) (n : Nat) :
    (em >>> n).mantissa ≤ em.mantissa := by
  show (n.repeat ExtendedMantissa.shiftRightOne em).mantissa ≤ em.mantissa
  induction n with
  | zero => exact Nat.le_refl _
  | succ n ih => exact Nat.le_trans (Nat.div_le_self _ 2) ih

/-- A positive number, cut down to an integer, is at most its mantissa with as many bits behind it
as the exponent says. -/
theorem roundToInt_le (m : Nat) (e : Int) :
    roundToInt .positive m e ≤ ((m * 2 ^ e.toNat : Nat) : Int) := by
  have hshift : m <<< (e - 0).toNat = m * 2 ^ e.toNat := by rw [Int.sub_zero, Nat.shiftLeft_eq]
  rw [← hshift]
  exact Int.ofNat_le.2 (mantissa_shiftRight_le ⟨m <<< (e - 0).toNat, false, false⟩ _)

/-- A mantissa has at most 53 bits. -/
theorem mantissa_lt_of_unpack {f : Float.Model} {s : Sign} {m : Nat} {e : Int} {hm : 0 < m}
    (h : f.unpack = .finite s m e hm) : m < 2 ^ 53 := by
  unfold Float.Model.unpack unpack at h
  extract_lets mantissaVec exponentVec exponent signVec sign at h
  by_cases hlast : exponentVec = -1#_
  · -- A number with the last exponent is not finite.
    rw [if_pos hlast] at h
    by_cases hzero : mantissaVec = 0#_
    · rw [if_pos hzero] at h
      cases h
    · rw [if_neg hzero] at h
      cases h
  · rw [if_neg hlast] at h
    by_cases hfirst : exponentVec = 0#_
    · rw [if_pos hfirst] at h
      by_cases hzero : mantissaVec = 0#_
      · rw [dif_pos hzero] at h
        cases h
      · rw [dif_neg hzero] at h
        injection h with hsign hmantissa
        rw [← hmantissa]
        exact Nat.lt_trans mantissaVec.isLt (by decide)
    · rw [if_neg hfirst] at h
      injection h with hsign hmantissa
      rw [← hmantissa]
      exact BitVec.isLt _

/-- The double next to the largest size. -/
theorem unpack_largestSize :
    largestSize.toFloat.toModel.unpack = .finite .positive (2 ^ 52) 11 (by decide) := rfl

/-- A number less than that one, cut down to an integer, is at most the largest size. -/
theorem toInt_le_of_lt {f : Float.Model} {top : Int}
    (h : f.unpack.lt largestSize.toFloat.toModel.unpack = true) :
    f.unpack.toInt 0 top ≤ largestSize := by
  have hzero : (0 : Int) ≤ largestSize := Int.natCast_nonneg _
  rw [unpack_largestSize] at h
  cases hf : f.unpack with
  | notANumber => exact hzero
  | zero s => exact hzero
  | infinity s =>
    rw [hf] at h
    cases s with
    | positive => cases h
    | negative => exact hzero
  | finite s m e hm =>
    rw [hf] at h
    cases s with
    | negative => exact Int.le_trans (Int.neg_nonpos_of_nonneg (Int.natCast_nonneg _)) hzero
    | positive =>
      have hbits : m < 2 ^ 53 := mantissa_lt_of_unpack hf
      have hround : roundToInt .positive m e ≤ ((m * 2 ^ e.toNat : Nat) : Int) := roundToInt_le m e
      have hsome : some ((compare e 11).then (compare m (2 ^ 52))) = some Ordering.lt :=
        eq_of_beq h
      have hcompare : (compare e 11).then (compare m (2 ^ 52)) = .lt := Option.some.inj hsome
      have hexponent : e < 11 ∨ e = 11 ∧ m < 2 ^ 52 := by
        rw [Ordering.then_eq_lt, Int.compare_eq_lt, Int.compare_eq_eq, Nat.compare_eq_lt]
          at hcompare
        exact hcompare
      refine Int.le_trans hround (Int.ofNat_le.2 ?_)
      rcases hexponent with he | ⟨rfl, hsmall⟩
      · have hm' : m ≤ 2 ^ 53 - 1 := Nat.le_sub_one_of_lt hbits
        have hpow : 2 ^ e.toNat ≤ 2 ^ 10 := Nat.pow_le_pow_right (by decide) (by omega)
        exact Nat.le_trans (Nat.mul_le_mul hm' hpow) (by decide)
      · have hm' : m ≤ 2 ^ 52 - 1 := Nat.le_sub_one_of_lt hsmall
        exact Nat.le_trans (Nat.mul_le_mul_right (2 ^ 11) hm') (by decide)

/-- What an estimate that counts comes to as a size. -/
theorem toUInt64_le_of_lt {estimate : Float} (h : estimate < largestSize.toFloat) :
    estimate.toUInt64.toNat ≤ largestSize := by
  have hlt : estimate.toModel.unpack.lt largestSize.toFloat.toModel.unpack = true :=
    of_decide_eq_true (p := estimate.toModel < largestSize.toFloat.toModel) h
  have hle : (estimate.toModel.unpack.toInt 0 (UInt64.size - 1)).toNat ≤ largestSize :=
    Int.toNat_le.2 (toInt_le_of_lt hlt)
  have hsize : (estimate.toModel.unpack.toInt 0 (UInt64.size - 1)).toNat < UInt64.size :=
    Nat.lt_of_le_of_lt hle (by decide)
  show (UInt64.ofNatClamp (estimate.toModel.unpack.toInt 0 (UInt64.size - 1)).toNat).toNat ≤ _
  rw [UInt64.ofNatClamp, dif_pos hsize, UInt64.toNat_ofNatLT]
  exact hle

/-- **The size of a chunk** is one that every stream can count. -/
theorem chunkSize_le (lastChunk : Nat × Nat) (missing : Nat) :
    chunkSize lastChunk missing ≤ largestSize := by
  have hleast : leastChunk ≤ largestSize := by decide
  unfold chunkSize
  extract_lets rate estimate
  split
  · next h => exact Nat.max_le.2 ⟨hleast, toUInt64_le_of_lt h⟩
  · exact hleast

/-- A chunk has a size of at least one byte. -/
theorem chunkSize_pos (lastChunk : Nat × Nat) (missing : Nat) :
    0 < chunkSize lastChunk missing := by
  have hleast : 0 < leastChunk := by decide
  unfold chunkSize
  extract_lets rate estimate
  split
  · exact Nat.lt_of_lt_of_le hleast (Nat.le_max_left _ _)
  · exact hleast

end PlacedText.Decoded
