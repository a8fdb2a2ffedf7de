import PlacedText.Proofs.Encoding.Strict

/-!
# Encoding in units of two and four bytes

`Utf16.encodeChar` and `Utf32.encodeChar` write a character as the standard says, in either byte
order.  What they write is found at the front of some bytes, whatever stands behind it
(`Utf16.finds`, `Utf32.finds`), so what is encoded reads as its characters.  And what is found does
not depend on bytes further behind (`Utf16.stable`, `Utf32.stable`), so that decoding in pieces
comes to the same, even if a unit or a pair of units is cut.
-/

namespace PlacedText

/-- The number of a character is that of a code point. -/
theorem CodePoint.ofNat?_toNat (c : Char) : ofNat? c.toNat = some (ofChar c) :=
  dif_pos (ofChar c).isLt

/-! ### Units -/

namespace ByteOrder

/-- A number below `0x10000` as two bytes. -/
def split16 : ByteOrder → Nat → Bytes
  | .little, u => [.ofNat (u % 0x100), .ofNat (u / 0x100)]
  | .big, u => [.ofNat (u / 0x100), .ofNat (u % 0x100)]

/-- A number below `0x100000000` as four bytes. -/
def split32 : ByteOrder → Nat → Bytes
  | .little, u => split16 .little (u % 0x10000) ++ split16 .little (u / 0x10000)
  | .big, u => split16 .big (u / 0x10000) ++ split16 .big (u % 0x10000)

/-- Two bytes are joined to the number that was split. -/
theorem exists_split16_eq (order : ByteOrder) {u : Nat} (h : u < 0x10000) :
    ∃ a b, order.split16 u = [a, b] ∧ order.join16 a b = u := by
  have hlow : (UInt8.ofNat (u % 0x100)).toNat = u % 0x100 := Utf8.toNat_byte (by omega)
  have hhigh : (UInt8.ofNat (u / 0x100)).toNat = u / 0x100 := Utf8.toNat_byte (by omega)
  cases order with
  | little =>
    refine ⟨_, _, rfl, ?_⟩
    rw [join16, hlow, hhigh]
    omega
  | big =>
    refine ⟨_, _, rfl, ?_⟩
    rw [join16, hlow, hhigh]
    omega

/-- Four bytes are joined to the number that was split. -/
theorem exists_split32_eq (order : ByteOrder) {u : Nat} (h : u < 0x100000000) :
    ∃ a b c d, order.split32 u = [a, b, c, d] ∧ order.join32 a b c d = u := by
  cases order with
  | little =>
    obtain ⟨a, b, hlow, hjoinlow⟩ := exists_split16_eq .little (u := u % 0x10000) (by omega)
    obtain ⟨c, d, hhigh, hjoinhigh⟩ := exists_split16_eq .little (u := u / 0x10000) (by omega)
    refine ⟨a, b, c, d, by rw [split32, hlow, hhigh]; rfl, ?_⟩
    rw [join32, hjoinlow, hjoinhigh]
    omega
  | big =>
    obtain ⟨a, b, hhigh, hjoinhigh⟩ := exists_split16_eq .big (u := u / 0x10000) (by omega)
    obtain ⟨c, d, hlow, hjoinlow⟩ := exists_split16_eq .big (u := u % 0x10000) (by omega)
    refine ⟨a, b, c, d, by rw [split32, hlow, hhigh]; rfl, ?_⟩
    rw [join32, hjoinlow, hjoinhigh]
    omega

end ByteOrder

/-! ### UTF-16 -/

namespace Utf16

theorem isHigh_iff {u : Nat} : isHigh u = true ↔ 0xD800 ≤ u ∧ u ≤ 0xDBFF := by
  rw [isHigh, Bool.and_eq_true, decide_eq_true_eq, decide_eq_true_eq]

theorem isLow_iff {u : Nat} : isLow u = true ↔ 0xDC00 ≤ u ∧ u ≤ 0xDFFF := by
  rw [isLow, Bool.and_eq_true, decide_eq_true_eq, decide_eq_true_eq]

/-- The units of a character: one, or beyond `FFFF` a high surrogate and a low one. -/
def units (c : Char) : List Nat :=
  if c.toNat < 0x10000 then [c.toNat]
  else [0xD800 + (c.toNat - 0x10000) / 0x400, 0xDC00 + (c.toNat - 0x10000) % 0x400]

/-- A character in UTF-16. -/
def encodeChar (order : ByteOrder) (c : Char) : Bytes := (units c).flatMap order.split16

theorem finds (order : ByteOrder) : Scheme.Finds (.utf16 order) (encodeChar order) := by
  intro c
  have hvalid : c.toNat < 0xD800 ∨ 0xDFFF < c.toNat ∧ c.toNat < 0x110000 := c.valid
  by_cases hone : c.toNat < 0x10000
  · -- One unit, which is no surrogate.
    obtain ⟨a, b, hsplit, hjoin⟩ := order.exists_split16_eq hone
    refine ⟨a, [b], ?_, fun rest => ?_⟩
    · rw [encodeChar, units, if_pos hone, List.flatMap_singleton, hsplit]
    · have hlow : isLow c.toNat = false := by simp [isLow]; omega
      have hhigh : isHigh c.toNat = false := by simp [isHigh]; omega
      show scan order a (b :: rest) = _
      simp only [scan, hjoin, hlow, hhigh, Bool.false_eq_true, ↓reduceIte, CodePoint.ofNat?_toNat]
      rfl
  · -- A high surrogate, and a low one.
    obtain ⟨n, hn⟩ : ∃ n, n = c.toNat - 0x10000 := ⟨_, rfl⟩
    have hrange : n < 0x100000 := by omega
    have hfirst : 0xD800 + n / 0x400 < 0x10000 := by omega
    have hsecond : 0xDC00 + n % 0x400 < 0x10000 := by omega
    obtain ⟨a, b, hfirst, hjoinfirst⟩ := order.exists_split16_eq hfirst
    obtain ⟨a', b', hsecond, hjoinsecond⟩ := order.exists_split16_eq hsecond
    refine ⟨a, [b, a', b'], ?_, fun rest => ?_⟩
    · rw [encodeChar, units, if_neg hone, ← hn, List.flatMap_cons, List.flatMap_singleton, hfirst,
        hsecond]
      rfl
    · have hnotlow : ¬isLow (0xD800 + n / 0x400) = true := by rw [isLow_iff]; omega
      have hhigh : isHigh (0xD800 + n / 0x400) = true := by rw [isHigh_iff]; omega
      have hlow : isLow (0xDC00 + n % 0x400) = true := by rw [isLow_iff]; omega
      have hpair : pair (0xD800 + n / 0x400) (0xDC00 + n % 0x400) = c.toNat := by
        unfold pair
        omega
      show scan order a (b :: a' :: b' :: rest) = _
      simp only [scan, hjoinfirst, hjoinsecond, hnotlow, hhigh, hlow, hpair, ↓reduceIte,
        CodePoint.ofNat?_toNat]
      rfl

variable {order : ByteOrder} {a b : UInt8}

/-- Behind a unit that is no high surrogate nothing is looked at. -/
theorem scan_of_not_high (h : ¬isHigh (order.join16 a b) = true) (rest : Bytes) :
    scan order a (b :: rest) = scan order a [b] := by
  simp only [scan, h, Bool.false_eq_true, ↓reduceIte]

/-- A high surrogate waits for the two bytes of a low one. -/
theorem scan_of_high (h : isHigh (order.join16 a b) = true) (rest : Bytes)
    (hrest : rest.length < 2) :
    scan order a (b :: rest) = .incomplete (rest.length + 1) .endOfData := by
  have hlow : ¬isLow (order.join16 a b) = true := by
    rw [isHigh_iff] at h
    rw [isLow_iff]
    omega
  match rest, hrest with
  | [], _ => simp only [scan, hlow, h]; rfl
  | [c], _ => simp only [scan, hlow, h]; rfl

/-- What is found lies within the data. -/
theorem more_le (a : UInt8) (rest : Bytes) : (scan order a rest).more ≤ rest.length := by
  match rest with
  | [] => exact Nat.le_refl 0
  | b :: rest =>
    by_cases hhigh : isHigh (order.join16 a b) = true
    · match rest with
      | [] => rw [scan_of_high hhigh [] Nat.zero_lt_two]; exact Nat.le_refl 1
      | [c] => rw [scan_of_high hhigh [c] Nat.one_lt_two]; exact Nat.le_refl 2
      | c :: d :: rest =>
        -- Two units at most.
        have hlength : 3 ≤ (b :: c :: d :: rest).length := Nat.le_add_left 3 rest.length
        refine Nat.le_trans ?_ hlength
        simp only [scan, hhigh, ↓reduceIte]
        split
        · exact Nat.le_add_left 1 2
        · split
          · split <;> exact Nat.le_refl 3
          · exact Nat.le_add_left 1 2
    · have hlength : 1 ≤ (b :: rest).length := Nat.le_add_left 1 rest.length
      refine Nat.le_trans ?_ hlength
      simp only [scan, hhigh, Bool.false_eq_true, ↓reduceIte]
      split
      · exact Nat.le_refl 1
      · split <;> exact Nat.le_refl 1

/-- **Stability.**  What is found at the front in UTF-16 is found without looking further. -/
theorem stable (order : ByteOrder) : Scheme.Stable (.utf16 order) where
  scan_append := by
    intro a rest hdecided later
    change (scan order a rest).Decided at hdecided
    change scan order a (rest ++ later) = scan order a rest
    match rest, hdecided with
    | [], hdecided => exact hdecided.elim
    | b :: rest, hdecided =>
      by_cases hhigh : isHigh (order.join16 a b) = true
      · match rest, hdecided with
        | [], hdecided =>
          rw [scan_of_high hhigh [] Nat.zero_lt_two] at hdecided
          exact hdecided.elim
        | [c], hdecided =>
          rw [scan_of_high hhigh [c] Nat.one_lt_two] at hdecided
          exact hdecided.elim
        | c :: d :: rest, _ => simp only [List.cons_append, scan]
      · rw [List.cons_append, scan_of_not_high hhigh, scan_of_not_high hhigh rest]
  more_le := more_le

end Utf16

/-! ### UTF-32 -/

namespace Utf32

/-- A character in UTF-32. -/
def encodeChar (order : ByteOrder) (c : Char) : Bytes := order.split32 c.toNat

theorem finds (order : ByteOrder) : Scheme.Finds (.utf32 order) (encodeChar order) := by
  intro ch
  have hvalid : ch.toNat < 0xD800 ∨ 0xDFFF < ch.toNat ∧ ch.toNat < 0x110000 := ch.valid
  have hrange : ch.toNat < 0x100000000 := by omega
  have hsurrogate : ¬(CodePoint.ofChar ch).isSurrogate = true := by
    rw [CodePoint.isSurrogate, Bool.and_eq_true, decide_eq_true_eq, decide_eq_true_eq]
    show ¬(0xD800 ≤ ch.toNat ∧ ch.toNat ≤ 0xDFFF)
    omega
  obtain ⟨a, b, c, d, hsplit, hjoin⟩ := order.exists_split32_eq hrange
  refine ⟨a, [b, c, d], hsplit, fun rest => ?_⟩
  show scan order a (b :: c :: d :: rest) = _
  simp only [scan, hjoin, CodePoint.ofNat?_toNat, hsurrogate]
  rfl

/-- **Stability.**  What is found at the front in UTF-32 is found without looking further. -/
theorem stable (order : ByteOrder) : Scheme.Stable (.utf32 order) where
  scan_append := by
    intro a rest hdecided later
    change (scan order a rest).Decided at hdecided
    change scan order a (rest ++ later) = scan order a rest
    match rest, hdecided with
    | [], hdecided => exact hdecided.elim
    | [b], hdecided => exact hdecided.elim
    | [b, c], hdecided => exact hdecided.elim
    | b :: c :: d :: rest, _ => simp only [List.cons_append, scan]
  more_le := by
    intro a rest
    change (scan order a rest).more ≤ rest.length
    match rest with
    | [] => exact Nat.le_refl 0
    | [b] => exact Nat.le_refl 1
    | [b, c] => exact Nat.le_refl 2
    | b :: c :: d :: rest =>
      have hlength : 3 ≤ (b :: c :: d :: rest).length := Nat.le_add_left 3 rest.length
      refine Nat.le_trans ?_ hlength
      simp only [scan]
      split
      · exact Nat.le_refl 3
      · split <;> exact Nat.le_refl 3

end Utf32

end PlacedText
