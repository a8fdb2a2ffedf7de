import PlacedText.Proofs.Encoding.Fronts

/-!
# Maximal subparts

Bytes that are no character are replaced or refused as a unit.  The unit is a *maximal subpart*
(`MaximalSubpart`): it goes as far as a character could have begun, and is one byte at least.  What
the scan of UTF-8 gives up on is always that (`maximalSubpart_of_scan`), and it never takes a byte
of ASCII (`MaximalSubpart.outside`).
-/

namespace PlacedText.Utf8

variable {first : UInt8} {bytes rest : Bytes} {c : Char}

/-! ### Beginnings of characters -/

/-- Bytes that follow can be completed, up to the number that was announced. -/
theorem exists_follows (first : UInt8) (i : Nat) : ∃ b, follows first i b := by
  cases i with
  | succ i => exact ⟨0x80, rfl⟩
  | zero =>
    by_cases hthree : first.toNat = 0xE0
    · exact ⟨0xA0, by simp [follows, fitsThree, fitsFour, isContinuation, hthree]⟩
    · by_cases hfour : first.toNat = 0xF0
      · exact ⟨0x90, by simp [follows, fitsThree, fitsFour, isContinuation, hfour]⟩
      · exact ⟨0x80, by simp [follows, fitsThree, fitsFour, isContinuation, hthree, hfour]⟩

theorem exists_followFrom (first : UInt8) (i n : Nat) :
    ∃ bytes, followFrom first i bytes ∧ bytes.length = n := by
  induction n generalizing i with
  | zero => exact ⟨[], rfl, rfl⟩
  | succ n ih =>
    obtain ⟨b, hb⟩ := exists_follows first i
    obtain ⟨bytes, hbytes, hlength⟩ := ih (i + 1)
    refine ⟨b :: bytes, ?_, by rw [List.length_cons, hlength]⟩
    rw [followFrom, hb, hbytes]
    rfl

/-- A first byte and bytes behind it begin a character exactly if they follow and are not more than
was announced. -/
theorem begins_iff : (∃ c, first :: bytes <+: String.utf8EncodeChar c) ↔
    ∃ m, announced? first = some m ∧ followFrom first 0 bytes ∧ bytes.length ≤ m := by
  constructor
  · rintro ⟨c, hprefix⟩
    obtain ⟨first', all, heq, hm, hall, -⟩ := encodeChar_eq c
    rw [heq, List.cons_prefix_cons] at hprefix
    obtain ⟨rfl, later, rfl⟩ := hprefix
    rw [followFrom_append, Bool.and_eq_true] at hall
    exact ⟨_, hm, hall.1, (List.prefix_append _ _).length_le⟩
  · rintro ⟨m, hm, hbytes, hlength⟩
    obtain ⟨later, hlater, hmissing⟩ :=
      exists_followFrom first (0 + bytes.length) (m - bytes.length)
    have hall : followFrom first 0 (bytes ++ later) := by
      rw [followFrom_append, hbytes, hlater]
      rfl
    obtain ⟨c, hc, -⟩ := exists_encodeChar_eq hm hall (by rw [List.length_append]; omega)
    exact ⟨c, by rw [hc]; exact List.prefix_append (first :: bytes) later⟩

/-- All bytes of a character but the first lie outside ASCII. -/
theorem isContinuation_of_followFrom {i : Nat} (h : followFrom first i bytes) :
    ∀ b ∈ bytes, isContinuation b := by
  induction bytes generalizing i with
  | nil => intro b hb; cases hb
  | cons a bytes ih =>
    rw [followFrom, Bool.and_eq_true] at h
    intro b hb
    rcases List.mem_cons.1 hb with rfl | hb
    · have hfollows : follows first i b := h.1
      cases i with
      | succ i => exact hfollows
      | zero =>
        simp only [follows, fitsThree, Bool.and_eq_true] at hfollows
        exact hfollows.1.1
    · exact ih h.2 b hb

/-! ### Maximal subparts -/

/-- The bytes `bad` are what cannot be decoded at the front of `b`: no character stands there, and
they go as far as a character could have begun, but one byte at least. -/
structure MaximalSubpart (bad b : Bytes) : Prop where
  ne_nil : bad ≠ []
  isFront : bad <+: b
  noChar : ∀ c, ¬String.utf8EncodeChar c <+: b
  begins : bad.length = 1 ∨ ∃ c, bad <+: String.utf8EncodeChar c
  maximal : ∀ x, x <+: b → bad.length < x.length → ∀ c, ¬x <+: String.utf8EncodeChar c

/-- A character at the front is found, so none is there if something else is found. -/
theorem not_encodeChar_prefix (h : ∀ c more, scan first rest ≠ .char c more) (c : Char) :
    ¬String.utf8EncodeChar c <+: first :: rest := by
  intro hprefix
  obtain ⟨first', bytes, heq, -⟩ := encodeChar_eq c
  rw [heq, List.cons_prefix_cons] at hprefix
  obtain ⟨rfl, later, rfl⟩ := hprefix
  exact h _ _ (scan_of_encodeChar heq later)

/-- What is no character in the end is a maximal subpart. -/
theorem maximalSubpart_of_scan {more : Nat} {reason : Reason}
    (h : (scan first rest).settled = .invalid more reason) :
    MaximalSubpart (first :: rest.take more) (first :: rest) := by
  have hnone : ∀ c k, scan first rest ≠ .char c k := by
    intro c k hscan
    rw [hscan] at h
    cases h
  have hfront : Front first rest (scan first rest) := front_scan first rest
  refine ⟨List.cons_ne_nil _ _, ?_, not_encodeChar_prefix hnone, ?_, ?_⟩
  · rw [List.cons_prefix_cons]
    exact ⟨rfl, List.take_prefix _ _⟩
  · -- The bytes go as far as they follow.
    generalize scan first rest = head at h hfront
    cases hfront with
    | stray hm => cases h; exact .inl rfl
    | whole hc rest => cases h
    | short hm hbytes hlength =>
      cases h
      rw [List.take_length]
      exact .inr (begins_iff.2 ⟨_, hm, hbytes, Nat.le_of_lt hlength⟩)
    | broken hm hbytes hlength hb rest =>
      cases h
      rw [List.take_left]
      exact .inr (begins_iff.2 ⟨_, hm, hbytes, Nat.le_of_lt hlength⟩)
    | doubtful hm hb => cases h; exact .inl rfl
  · -- Longer ones do not follow.
    intro x hx hlonger c hbegins
    cases x with
    | nil => cases hlonger
    | cons first' bytes =>
      obtain ⟨rfl, hbytes⟩ := List.cons_prefix_cons.1 hx
      obtain ⟨m, hm, hfollow, -⟩ := begins_iff.1 ⟨c, hbegins⟩
      simp only [List.length_cons, List.length_take] at hlonger
      have hle : bytes.length ≤ rest.length := hbytes.length_le
      generalize scan first' rest = head at h hfront
      cases hfront with
      | stray hnone => rw [hm] at hnone; cases hnone
      | whole hc rest => cases h
      | short hm hall hlength => cases h; omega
      | @broken front _ b _ hall hlength hb rest =>
        cases h
        -- The byte that does not follow would be one of them.
        have hlonger : front.length < bytes.length := by
          rw [List.length_append] at hlonger
          omega
        have hwith : front ++ [b] <+: bytes := by
          refine List.prefix_of_prefix_length_le ?_ hbytes (by simp; omega)
          exact ⟨rest, by simp⟩
        obtain ⟨later, rfl⟩ := hwith
        simp only [followFrom_append, followFrom, Nat.zero_add, hb, Bool.and_eq_true,
          Bool.false_eq_true, false_and, and_false] at hfollow
      | @doubtful _ b _ hb =>
        cases h
        have hwith : [b] <+: bytes :=
          List.prefix_of_prefix_length_le List.prefix_rfl hbytes (by simp; omega)
        obtain ⟨later, rfl⟩ := hwith
        simp only [List.singleton_append, followFrom, hb, Bool.false_and, Bool.false_eq_true]
          at hfollow

/-- The bytes of a maximal subpart lie outside ASCII. -/
theorem MaximalSubpart.outside {bad b : Bytes} (h : MaximalSubpart bad b) :
    ∀ a ∈ bad, 0x80 ≤ a.toNat := by
  obtain ⟨hne, ⟨later, rfl⟩, hnone, hbegins, -⟩ := h
  cases bad with
  | nil => exact absurd rfl hne
  | cons first bytes =>
    intro a ha
    rcases List.mem_cons.1 ha with rfl | ha
    · -- A byte of ASCII would be a character.
      rcases Nat.lt_or_ge a.toNat 0x80 with hlow | hhigh
      · have hm : announced? a = some 0 := if_pos hlow
        obtain ⟨c, hc, -⟩ := @exists_encodeChar_eq a 0 [] hm rfl rfl
        exact absurd ⟨bytes ++ later, by rw [hc]; rfl⟩ (hnone c)
      · exact hhigh
    · rcases hbegins with hone | hbegins
      · rw [List.length_cons, Nat.add_eq_right, List.length_eq_zero_iff] at hone
        rw [hone] at ha
        cases ha
      · obtain ⟨m, -, hfollow, -⟩ := begins_iff.1 hbegins
        have hcontinues := isContinuation_of_followFrom hfollow a ha
        simp only [isContinuation, Bool.and_eq_true, decide_eq_true_eq] at hcontinues
        exact hcontinues.1

end PlacedText.Utf8
