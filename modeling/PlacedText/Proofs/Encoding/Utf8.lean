import Mathlib.Tactic.SplitIfs
import PlacedText.Encoding.Utf8

/-!
# The characters of UTF-8

A first byte announces how many bytes stand behind it (`announced?`), and limits them (`follows`).
What stands at the front of some bytes depends on nothing else: on how far the bytes follow, and on
whether they go as far as was announced (`scan_of_whole`, `scan_of_short`, `scan_of_broken`).

The other side is the encoding of a character in the standard library.  Its first byte announces
the others, which follow (`encodeChar_eq`), and all bytes that do so encode a character
(`exists_encodeChar_eq`).
-/

namespace PlacedText.Utf8

/-- The number of bytes that a first byte announces behind it, if it can begin a character. -/
def announced? (first : UInt8) : Option Nat :=
  if first.toNat < 0x80 then some 0
  else if first.toNat < 0xC2 then none
  else if first.toNat < 0xE0 then some 1
  else if first.toNat < 0xF0 then some 2
  else if first.toNat < 0xF5 then some 3
  else none

/-- Whether a byte can stand behind a first byte, with `i` bytes between them. -/
def follows (first : UInt8) : Nat → UInt8 → Bool
  | 0, b => fitsThree first b && fitsFour first b
  | _ + 1, b => isContinuation b

/-- Whether bytes can stand behind a first byte, with `i` bytes between them. -/
def followFrom (first : UInt8) : Nat → Bytes → Bool
  | _, [] => true
  | i, b :: bytes => follows first i b && followFrom first (i + 1) bytes

theorem followFrom_append (first : UInt8) (i : Nat) (xs ys : Bytes) :
    followFrom first i (xs ++ ys) =
      (followFrom first i xs && followFrom first (i + xs.length) ys) := by
  induction xs generalizing i with
  | nil => simp [followFrom]
  | cons b xs ih =>
    rw [List.cons_append, followFrom, followFrom, ih, List.length_cons, Bool.and_assoc]
    congr 3
    omega

/-- The number that a first byte and bytes behind it spell. -/
def number (first : UInt8) : Bytes → Nat
  | [] => first.toNat
  | [b] => first.toNat % 0x20 * 0x40 + payload b
  | [b, c] => first.toNat % 0x10 * 0x1000 + payload b * 0x40 + payload c
  | b :: c :: d :: _ =>
    first.toNat % 0x08 * 0x40000 + payload b * 0x1000 + payload c * 0x40 + payload d

variable {first : UInt8} {m : Nat}

/-- What a first byte announces tells its range. -/
theorem announced?_eq_some (h : announced? first = some m) :
    first.toNat < 0x80 ∧ m = 0 ∨
    (0xC2 ≤ first.toNat ∧ first.toNat < 0xE0) ∧ m = 1 ∨
    (0xE0 ≤ first.toNat ∧ first.toNat < 0xF0) ∧ m = 2 ∨
    (0xF0 ≤ first.toNat ∧ first.toNat < 0xF5) ∧ m = 3 := by
  unfold announced? at h
  repeat' split at h
  all_goals cases h
  all_goals omega

theorem announced?_eq_none (h : announced? first = none) :
    0x80 ≤ first.toNat ∧ first.toNat < 0xC2 ∨ 0xF5 ≤ first.toNat := by
  unfold announced? at h
  repeat' split at h
  all_goals cases h
  all_goals omega

theorem follows_zero_of_two (h : first.toNat < 0xE0) : follows first 0 = isContinuation := by
  funext b
  grind [follows, fitsThree, fitsFour]

theorem follows_zero_of_three (h : first.toNat < 0xF0) : follows first 0 = fitsThree first := by
  funext b
  grind [follows, fitsThree, fitsFour]

theorem follows_zero_of_four (h : 0xF0 ≤ first.toNat) : follows first 0 = fitsFour first := by
  funext b
  grind [follows, fitsThree, fitsFour]

/-! ### What stands at the front -/

theorem scan_of_none (h : announced? first = none) (rest : Bytes) :
    scan first rest = .invalid 0 .startByte := by
  rcases announced?_eq_none h with ⟨h1, h2⟩ | h1
  · simp only [scan, if_neg (Nat.not_lt.2 h1), if_pos h2]
  · have h2 : ¬first.toNat < 0x80 := by omega
    have h3 : ¬first.toNat < 0xC2 := by omega
    have h4 : ¬first.toNat < 0xE0 := by omega
    have h5 : ¬first.toNat < 0xF0 := by omega
    have h6 : ¬first.toNat < 0xF5 := by omega
    simp only [scan, h2, h3, h4, h5, h6, ↓reduceIte]

theorem scan_of_one (h : first.toNat < 0x80) (rest : Bytes) :
    scan first rest = character first.toNat 0 := by
  simp only [scan, if_pos h]

theorem scan_of_two (h : 0xC2 ≤ first.toNat ∧ first.toNat < 0xE0) :
    scan first [] = .incomplete 0 .endOfData ∧ ∀ b rest, scan first (b :: rest) =
      if follows first 0 b then character (number first [b]) 1
      else .invalid 0 .continuationByte := by
  have h1 : ¬first.toNat < 0x80 := by omega
  have h2 : ¬first.toNat < 0xC2 := by omega
  simp only [scan, h1, h2, h.2, ↓reduceIte, follows_zero_of_two h.2, number, implies_true,
    and_self]

theorem scan_of_three (h : 0xE0 ≤ first.toNat ∧ first.toNat < 0xF0) :
    scan first [] = .incomplete 0 .endOfData ∧
    (∀ b, scan first [b] =
      if follows first 0 b then .incomplete 1 .endOfData
      else if first.toNat = 0xED && isContinuation b then .incomplete 0 .continuationByte
      else .invalid 0 .continuationByte) ∧
    ∀ b c rest, scan first (b :: c :: rest) =
      if !follows first 0 b then .invalid 0 .continuationByte
      else if !follows first 1 c then .invalid 1 .continuationByte
      else character (number first [b, c]) 2 := by
  have h1 : ¬first.toNat < 0x80 := by omega
  have h2 : ¬first.toNat < 0xC2 := by omega
  have h3 : ¬first.toNat < 0xE0 := by omega
  have hone : follows first 1 = isContinuation := rfl
  simp only [scan, h1, h2, h3, h.2, ↓reduceIte, follows_zero_of_three h.2, hone, number,
    implies_true, and_self]

theorem scan_of_four (h : 0xF0 ≤ first.toNat ∧ first.toNat < 0xF5) :
    scan first [] = .incomplete 0 .endOfData ∧
    (∀ b, scan first [b] =
      if !follows first 0 b then .invalid 0 .continuationByte else .incomplete 1 .endOfData) ∧
    (∀ b c, scan first [b, c] =
      if !follows first 0 b then .invalid 0 .continuationByte
      else if !follows first 1 c then .invalid 1 .continuationByte
      else .incomplete 2 .endOfData) ∧
    ∀ b c d rest, scan first (b :: c :: d :: rest) =
      if !follows first 0 b then .invalid 0 .continuationByte
      else if !follows first 1 c then .invalid 1 .continuationByte
      else if !follows first 2 d then .invalid 2 .continuationByte
      else character (number first [b, c, d]) 3 := by
  have h1 : ¬first.toNat < 0x80 := by omega
  have h2 : ¬first.toNat < 0xC2 := by omega
  have h3 : ¬first.toNat < 0xE0 := by omega
  have h4 : ¬first.toNat < 0xF0 := by omega
  have hone : follows first 1 = isContinuation := rfl
  have htwo : follows first 2 = isContinuation := rfl
  simp only [scan, h1, h2, h3, h4, h.2, ↓reduceIte, follows_zero_of_four h.1, hone, htwo, number,
    implies_true, and_self]

/-! ### Bytes that follow -/

variable {bytes : Bytes}

/-- A first byte and as many bytes behind it as it announces are a character. -/
theorem scan_of_whole (hm : announced? first = some m) (hbytes : followFrom first 0 bytes)
    (hlength : bytes.length = m) (rest : Bytes) :
    scan first (bytes ++ rest) = character (number first bytes) m := by
  rcases announced?_eq_some hm with ⟨h, rfl⟩ | ⟨h, rfl⟩ | ⟨h, rfl⟩ | ⟨h, rfl⟩
  · match bytes, hlength with
    | [], _ => exact scan_of_one h rest
  · match bytes, hlength, hbytes with
    | [b], _, hbytes =>
      simp only [followFrom, Bool.and_true] at hbytes
      rw [List.singleton_append, (scan_of_two h).2, if_pos hbytes]
  · match bytes, hlength, hbytes with
    | [b, c], _, hbytes =>
      simp only [followFrom, Bool.and_true, Bool.and_eq_true] at hbytes
      simp [(scan_of_three h).2.2, hbytes]
  · match bytes, hlength, hbytes with
    | [b, c, d], _, hbytes =>
      simp only [followFrom, Bool.and_true, Bool.and_eq_true] at hbytes
      simp [(scan_of_four h).2.2.2, hbytes]

/-- Fewer bytes stop inside a character. -/
theorem scan_of_short (hm : announced? first = some m) (hbytes : followFrom first 0 bytes)
    (hlength : bytes.length < m) : scan first bytes = .incomplete bytes.length .endOfData := by
  rcases announced?_eq_some hm with ⟨h, rfl⟩ | ⟨h, rfl⟩ | ⟨h, rfl⟩ | ⟨h, rfl⟩
  · cases hlength
  · match bytes, hlength with
    | [], _ => exact (scan_of_two h).1
  · match bytes, hlength, hbytes with
    | [], _, _ => exact (scan_of_three h).1
    | [b], _, hbytes =>
      simp only [followFrom, Bool.and_true] at hbytes
      simp [(scan_of_three h).2.1, hbytes]
  · match bytes, hlength, hbytes with
    | [], _, _ => exact (scan_of_four h).1
    | [b], _, hbytes =>
      simp only [followFrom, Bool.and_true] at hbytes
      simp [(scan_of_four h).2.1, hbytes]
    | [b, c], _, hbytes =>
      simp only [followFrom, Bool.and_true, Bool.and_eq_true] at hbytes
      simp [(scan_of_four h).2.2.1, hbytes]

/-- A byte that does not follow ends what is no character.  Only if it is the second one of what
would be a surrogate, and the last one there is, is the question left open. -/
theorem scan_of_broken {b : UInt8} (hm : announced? first = some m)
    (hbytes : followFrom first 0 bytes) (hlength : bytes.length < m)
    (hb : follows first bytes.length b = false) (rest : Bytes) :
    scan first (bytes ++ b :: rest) = .invalid bytes.length .continuationByte ∨
      bytes = [] ∧ rest = [] ∧
        scan first (bytes ++ b :: rest) = .incomplete 0 .continuationByte := by
  rcases announced?_eq_some hm with ⟨h, rfl⟩ | ⟨h, rfl⟩ | ⟨h, rfl⟩ | ⟨h, rfl⟩
  · cases hlength
  · match bytes, hlength, hb with
    | [], _, hb =>
      have hb : follows first 0 b = false := hb
      simp [(scan_of_two h).2, hb]
  · match bytes, rest, hlength, hbytes, hb with
    | [], [], _, _, hb =>
      -- Only here is the question left open, behind the first byte of surrogates.
      have hb : follows first 0 b = false := hb
      by_cases hopen : (first.toNat = 0xED && isContinuation b) = true
      · exact .inr ⟨rfl, rfl, by simp [(scan_of_three h).2.1, hb, hopen]⟩
      · exact .inl (by simp [(scan_of_three h).2.1, hb, hopen])
    | [], c :: rest, _, _, hb =>
      have hb : follows first 0 b = false := hb
      simp [(scan_of_three h).2.2, hb]
    | [a], rest, _, hbytes, hb =>
      have hb : follows first 1 b = false := hb
      simp only [followFrom, Bool.and_true] at hbytes
      simp [(scan_of_three h).2.2, hb, hbytes]
  · match bytes, rest, hlength, hbytes, hb with
    | [], [], _, _, hb =>
      have hb : follows first 0 b = false := hb
      simp [(scan_of_four h).2.1, hb]
    | [], [c], _, _, hb =>
      have hb : follows first 0 b = false := hb
      simp [(scan_of_four h).2.2.1, hb]
    | [], c :: d :: rest, _, _, hb =>
      have hb : follows first 0 b = false := hb
      simp [(scan_of_four h).2.2.2, hb]
    | [a], [], _, hbytes, hb =>
      have hb : follows first 1 b = false := hb
      simp only [followFrom, Bool.and_true] at hbytes
      simp [(scan_of_four h).2.2.1, hb, hbytes]
    | [a], d :: rest, _, hbytes, hb =>
      have hb : follows first 1 b = false := hb
      simp only [followFrom, Bool.and_true] at hbytes
      simp [(scan_of_four h).2.2.2, hb, hbytes]
    | [a, a'], rest, _, hbytes, hb =>
      have hb : follows first 2 b = false := hb
      simp only [followFrom, Bool.and_true, Bool.and_eq_true] at hbytes
      simp [(scan_of_four h).2.2.2, hb, hbytes]

/-! ### Encoded characters -/

theorem toNat_byte {n : Nat} (h : n < 0x100) : (UInt8.ofNat n).toNat = n :=
  Nat.mod_eq_of_lt h

/-- The encoding of a character is a first byte and as many bytes behind it as it announces, which
spell the character. -/
theorem encodeChar_eq (c : Char) : ∃ first bytes, String.utf8EncodeChar c = first :: bytes ∧
    announced? first = some bytes.length ∧ followFrom first 0 bytes ∧
    number first bytes = c.toNat := by
  have hvalid : c.toNat < 0xD800 ∨ 0xDFFF < c.toNat ∧ c.toNat < 0x110000 := c.valid
  have hval : c.val.toNat = c.toNat := rfl
  simp only [String.utf8EncodeChar, hval]
  generalize c.toNat = v at hvalid
  by_cases h1 : v ≤ 0x7F
  · have hfirst : (UInt8.ofNat v).toNat = v := toNat_byte (by omega)
    rw [if_pos h1]
    refine ⟨_, _, rfl, ?_, rfl, hfirst⟩
    rw [announced?, hfirst, if_pos (by omega)]
    rfl
  rw [if_neg h1]
  by_cases h2 : v ≤ 0x7FF
  · have hfirst : (UInt8.ofNat (v / 64 % 32 + 192)).toNat = v / 64 % 32 + 192 :=
      toNat_byte (by omega)
    have hb : (UInt8.ofNat (v % 64 + 128)).toNat = v % 64 + 128 := toNat_byte (by omega)
    rw [if_pos h2]
    refine ⟨_, _, rfl, ?_, ?_, ?_⟩
    · rw [announced?, hfirst, if_neg (by omega), if_neg (by omega), if_pos (by omega)]
      rfl
    · rw [followFrom, follows_zero_of_two (by omega)]
      simp only [isContinuation, hb, followFrom, Bool.and_true, Bool.and_eq_true, decide_eq_true_eq]
      omega
    · simp only [number, payload, hfirst, hb]
      omega
  rw [if_neg h2]
  by_cases h3 : v ≤ 0xFFFF
  · have hfirst : (UInt8.ofNat (v / 4096 % 16 + 224)).toNat = v / 4096 % 16 + 224 :=
      toNat_byte (by omega)
    have hb : (UInt8.ofNat (v / 64 % 64 + 128)).toNat = v / 64 % 64 + 128 := toNat_byte (by omega)
    have hc : (UInt8.ofNat (v % 64 + 128)).toNat = v % 64 + 128 := toNat_byte (by omega)
    rw [if_pos h3]
    refine ⟨_, _, rfl, ?_, ?_, ?_⟩
    · rw [announced?, hfirst, if_neg (by omega), if_neg (by omega), if_neg (by omega),
        if_pos (by omega)]
      rfl
    · rw [followFrom, follows_zero_of_three (by omega)]
      simp only [followFrom, follows, fitsThree, isContinuation, hfirst, hb, hc, Bool.and_true,
        Bool.and_eq_true, decide_eq_true_eq]
      refine ⟨⟨by omega, ?_⟩, by omega⟩
      split_ifs <;> simp <;> omega
    · simp only [number, payload, hfirst, hb, hc]
      omega
  · have hfirst : (UInt8.ofNat (v / 262144 % 8 + 240)).toNat = v / 262144 % 8 + 240 :=
      toNat_byte (by omega)
    have hb : (UInt8.ofNat (v / 4096 % 64 + 128)).toNat = v / 4096 % 64 + 128 :=
      toNat_byte (by omega)
    have hc : (UInt8.ofNat (v / 64 % 64 + 128)).toNat = v / 64 % 64 + 128 := toNat_byte (by omega)
    have hd : (UInt8.ofNat (v % 64 + 128)).toNat = v % 64 + 128 := toNat_byte (by omega)
    rw [if_neg h3]
    refine ⟨_, _, rfl, ?_, ?_, ?_⟩
    · rw [announced?, hfirst, if_neg (by omega), if_neg (by omega), if_neg (by omega),
        if_neg (by omega), if_pos (by omega)]
      rfl
    · rw [followFrom, follows_zero_of_four (by omega)]
      simp only [followFrom, follows, fitsFour, isContinuation, hfirst, hb, hc, hd, Bool.and_true,
        Bool.and_eq_true, decide_eq_true_eq]
      refine ⟨⟨by omega, ?_⟩, by omega, by omega⟩
      split_ifs <;> simp <;> omega
    · simp only [number, payload, hfirst, hb, hc, hd]
      omega

theorem eq_byte {b : UInt8} {n : Nat} (h : b.toNat = n) : UInt8.ofNat n = b := by
  rw [← h, UInt8.ofNat_toNat]

/-- The number of a whole character is that of a character. -/
theorem isValidChar_number (hm : announced? first = some m) (hbytes : followFrom first 0 bytes)
    (hlength : bytes.length = m) : (number first bytes).isValidChar := by
  rcases announced?_eq_some hm with ⟨h, rfl⟩ | ⟨h, rfl⟩ | ⟨h, rfl⟩ | ⟨h, rfl⟩
  · match bytes, hlength with
    | [], _ => exact .inl (by simp only [number]; omega)
  · match bytes, hlength, hbytes with
    | [b], _, hbytes => exact .inl (by simp only [number, payload]; omega)
  · match bytes, hlength, hbytes with
    | [b, c], _, hbytes =>
      rw [followFrom, follows_zero_of_three h.2] at hbytes
      simp only [followFrom, follows, fitsThree, isContinuation, Bool.and_true, Bool.and_eq_true,
        decide_eq_true_eq] at hbytes
      obtain ⟨⟨hb, hrange⟩, hc⟩ := hbytes
      simp only [number, payload, Nat.isValidChar]
      split_ifs at hrange <;> simp at hrange <;> omega
  · match bytes, hlength, hbytes with
    | [b, c, d], _, hbytes =>
      rw [followFrom, follows_zero_of_four h.1] at hbytes
      simp only [followFrom, follows, fitsFour, isContinuation, Bool.and_true, Bool.and_eq_true,
        decide_eq_true_eq] at hbytes
      obtain ⟨⟨hb, hrange⟩, hc, hd⟩ := hbytes
      simp only [number, payload, Nat.isValidChar]
      split_ifs at hrange <;> simp at hrange <;> omega

/-- A first byte and as many bytes behind it as it announces are the encoding of a character, and
spell it. -/
theorem exists_encodeChar_eq (hm : announced? first = some m) (hbytes : followFrom first 0 bytes)
    (hlength : bytes.length = m) :
    ∃ c : Char, String.utf8EncodeChar c = first :: bytes ∧ number first bytes = c.toNat := by
  have hvalid : (number first bytes).isValidChar := isValidChar_number hm hbytes hlength
  obtain ⟨c, hval⟩ : ∃ c : Char, c.val.toNat = number first bytes :=
    ⟨Char.ofNatAux (number first bytes) hvalid, rfl⟩
  refine ⟨c, ?_, hval.symm⟩
  simp only [String.utf8EncodeChar, hval]
  clear hvalid hval
  rcases announced?_eq_some hm with ⟨h, rfl⟩ | ⟨h, rfl⟩ | ⟨h, rfl⟩ | ⟨h, rfl⟩
  · match bytes, hlength with
    | [], _ =>
      rw [number, if_pos (by omega), UInt8.ofNat_toNat]
  · match bytes, hlength, hbytes with
    | [b], _, hbytes =>
      rw [followFrom, follows_zero_of_two h.2] at hbytes
      simp only [followFrom, isContinuation, Bool.and_true, Bool.and_eq_true,
        decide_eq_true_eq] at hbytes
      generalize hv : number first [b] = v
      simp only [number, payload] at hv
      rw [if_neg (by omega), if_pos (by omega), eq_byte (b := first) (by omega),
        eq_byte (b := b) (by omega)]
  · match bytes, hlength, hbytes with
    | [b, c], _, hbytes =>
      rw [followFrom, follows_zero_of_three h.2] at hbytes
      simp only [followFrom, follows, fitsThree, isContinuation, Bool.and_true, Bool.and_eq_true,
        decide_eq_true_eq] at hbytes
      obtain ⟨⟨hb, hrange⟩, hc⟩ := hbytes
      have hlow : 0x800 ≤ number first [b, c] := by
        simp only [number, payload]
        split_ifs at hrange <;> simp at hrange <;> omega
      generalize hv : number first [b, c] = v at hlow ⊢
      simp only [number, payload] at hv
      rw [if_neg (by omega), if_neg (by omega), if_pos (by omega), eq_byte (b := first) (by omega),
        eq_byte (b := b) (by omega), eq_byte (b := c) (by omega)]
  · match bytes, hlength, hbytes with
    | [b, c, d], _, hbytes =>
      rw [followFrom, follows_zero_of_four h.1] at hbytes
      simp only [followFrom, follows, fitsFour, isContinuation, Bool.and_true, Bool.and_eq_true,
        decide_eq_true_eq] at hbytes
      obtain ⟨⟨hb, hrange⟩, hc, hd⟩ := hbytes
      have hlow : 0x10000 ≤ number first [b, c, d] := by
        simp only [number, payload]
        split_ifs at hrange <;> simp at hrange <;> omega
      generalize hv : number first [b, c, d] = v at hlow ⊢
      simp only [number, payload] at hv
      rw [if_neg (by omega), if_neg (by omega), if_neg (by omega), eq_byte (b := first) (by omega),
        eq_byte (b := b) (by omega), eq_byte (b := c) (by omega), eq_byte (b := d) (by omega)]

end PlacedText.Utf8
