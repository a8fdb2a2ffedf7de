import PlacedText.Proofs.Encoding.Reading
import PlacedText.Proofs.Encoding.Utf8

/-!
# What stands at the front of UTF-8

`Front first rest head` lists what can stand at the front, each case with what the bytes are like in
it, and `front_scan` says that one of the cases applies.  Two facts are read off from it: an encoded
character at the front is found (`scan_of_encodeChar`), and what is found does not depend on bytes
further behind (`stable`).
-/

namespace PlacedText.Utf8

variable {first : UInt8} {bytes : Bytes} {c : Char}

/-! ### All cases at once -/

/-- The encoded character at the front is found. -/
theorem scan_of_encodeChar (h : String.utf8EncodeChar c = first :: bytes) (rest : Bytes) :
    scan first (bytes ++ rest) = .char (.ofChar c) bytes.length := by
  obtain ⟨first', bytes', heq, hm, hbytes, hnumber⟩ := encodeChar_eq c
  obtain ⟨rfl, rfl⟩ := List.cons.inj (h.symm.trans heq)
  have hpoint : CodePoint.ofNat? c.toNat = some (.ofChar c) := dif_pos (CodePoint.ofChar c).isLt
  rw [scan_of_whole hm hbytes rfl, hnumber, character, hpoint]

/-- Bytes behind a first byte are cut where one of them does not follow, or where there are as many
as were announced, if either happens. -/
theorem exists_cut (first : UInt8) (m : Nat) (rest : Bytes) :
    (∃ bytes later, rest = bytes ++ later ∧ followFrom first 0 bytes ∧ bytes.length = m) ∨
    (followFrom first 0 rest ∧ rest.length < m) ∨
    ∃ bytes b later, rest = bytes ++ b :: later ∧ followFrom first 0 bytes ∧ bytes.length < m ∧
      follows first bytes.length b = false := by
  induction m with
  | zero => exact .inl ⟨[], rest, rfl, rfl, rfl⟩
  | succ m ih =>
    rcases ih with ⟨bytes, later, rfl, hbytes, hlength⟩ | ⟨hbytes, hlength⟩ |
      ⟨bytes, b, later, rfl, hbytes, hlength, hb⟩
    · cases later with
      | nil =>
        rw [List.append_nil]
        exact .inr (.inl ⟨hbytes, by omega⟩)
      | cons b later =>
        by_cases hb : follows first bytes.length b = true
        · refine .inl ⟨bytes ++ [b], later, by simp, ?_, by simp [hlength]⟩
          simp [followFrom_append, followFrom, hbytes, hb]
        · exact .inr (.inr ⟨bytes, b, later, rfl, hbytes, by omega, by simpa using hb⟩)
    · exact .inr (.inl ⟨hbytes, by omega⟩)
    · exact .inr (.inr ⟨bytes, b, later, rfl, hbytes, by omega, hb⟩)

/-- What can stand at the front of a first byte and those after it. -/
inductive Front (first : UInt8) : Bytes → Head → Prop where
  /-- The first byte begins no character. -/
  | stray {rest : Bytes} (announced : announced? first = none) :
      Front first rest (.invalid 0 .startByte)
  /-- A character. -/
  | whole {c : Char} {bytes : Bytes} (encoded : String.utf8EncodeChar c = first :: bytes)
      (rest : Bytes) : Front first (bytes ++ rest) (.char (.ofChar c) bytes.length)
  /-- The data stops inside a character. -/
  | short {bytes : Bytes} {m : Nat} (announced : announced? first = some m)
      (follow : followFrom first 0 bytes) (length_lt : bytes.length < m) :
      Front first bytes (.incomplete bytes.length .endOfData)
  /-- A byte does not follow. -/
  | broken {bytes : Bytes} {m : Nat} {b : UInt8} (announced : announced? first = some m)
      (follow : followFrom first 0 bytes) (length_lt : bytes.length < m)
      (breaks : follows first bytes.length b = false) (rest : Bytes) :
      Front first (bytes ++ b :: rest) (.invalid bytes.length .continuationByte)
  /-- A byte does not follow, but that is not said before more of the data is there. -/
  | doubtful {m : Nat} {b : UInt8} (announced : announced? first = some m)
      (breaks : follows first 0 b = false) :
      Front first [b] (.incomplete 0 .continuationByte)

/-- One of these stands at the front. -/
theorem front_scan (first : UInt8) (rest : Bytes) : Front first rest (scan first rest) := by
  cases hm : announced? first with
  | none =>
    rw [scan_of_none hm]
    exact .stray hm
  | some m =>
    rcases exists_cut first m rest with ⟨bytes, later, rfl, hbytes, hlength⟩ | ⟨hbytes, hlength⟩ |
      ⟨bytes, b, later, rfl, hbytes, hlength, hb⟩
    · obtain ⟨c, hc, -⟩ := exists_encodeChar_eq hm hbytes hlength
      rw [scan_of_encodeChar hc]
      exact .whole hc later
    · rw [scan_of_short hm hbytes hlength]
      exact .short hm hbytes hlength
    · rcases scan_of_broken hm hbytes hlength hb later with hscan | ⟨rfl, rfl, hscan⟩
      · rw [hscan]
        exact .broken hm hbytes hlength hb later
      · rw [hscan]
        exact .doubtful hm hb

/-- A character that is found is an encoded one. -/
theorem exists_encodeChar_of_scan {rest : Bytes} {d : CodePoint} {more : Nat}
    (h : scan first rest = .char d more) :
    ∃ c bytes later, String.utf8EncodeChar c = first :: bytes ∧ rest = bytes ++ later ∧
      d = .ofChar c ∧ more = bytes.length := by
  have hfront : Front first rest (scan first rest) := front_scan first rest
  rw [h] at hfront
  cases hfront with
  | @whole c bytes hc later => exact ⟨c, bytes, later, hc, rfl, rfl, rfl⟩

/-- **Stability.**  What is found at the front in UTF-8 is found without looking further. -/
theorem stable : Scheme.Stable .utf8 where
  scan_append := by
    intro first rest hdecided later
    change (scan first rest).Decided at hdecided
    change scan first (rest ++ later) = scan first rest
    have hfront : Front first rest (scan first rest) := front_scan first rest
    generalize hhead : scan first rest = head at hdecided hfront ⊢
    cases hfront with
    | stray hm => exact scan_of_none hm _
    | whole hc rest =>
      rw [List.append_assoc]
      exact scan_of_encodeChar hc _
    | short hm hbytes hlength => exact hdecided.elim
    | broken hm hbytes hlength hb rest =>
      rw [List.append_assoc, List.cons_append]
      rcases scan_of_broken hm hbytes hlength hb (rest ++ later) with hscan | ⟨rfl, hnil, -⟩
      · exact hscan
      · -- If the question were left open with more bytes, it would have been left open before.
        obtain ⟨rfl, rfl⟩ := List.append_eq_nil_iff.1 hnil
        exact hhead
    | doubtful hm hb => exact hdecided.elim
  more_le := by
    intro first rest
    change (scan first rest).more ≤ rest.length
    have hfront : Front first rest (scan first rest) := front_scan first rest
    generalize scan first rest = head at hfront ⊢
    cases hfront with
    | stray hm => exact Nat.zero_le _
    | whole hc rest => exact (List.prefix_append _ _).length_le
    | short hm hbytes hlength => exact Nat.le_refl _
    | broken hm hbytes hlength hb rest => exact (List.prefix_append _ _).length_le
    | doubtful hm hb => exact Nat.zero_le _

end PlacedText.Utf8
