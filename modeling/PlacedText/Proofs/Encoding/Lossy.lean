import Mathlib.Data.List.TakeWhile
import PlacedText.Proofs.Encoding.Strict
import PlacedText.Proofs.Encoding.Subparts

/-!
# Lossy decoding of UTF-8

Four policies never give up: each writes some text in the place of bytes that are no character
(`Policy.substitute?`).  Under them all bytes read as a text, and as the one that is meant
(`exists_reads`): characters where characters stand, and the text of the policy for each maximal
subpart that is none (`ReadsReplacing`).

Of the four, the policy that remembers bytes as surrogates loses nothing: the bytes can be had back
from the text (`encodeEscaped?_of_reads`).
-/

namespace PlacedText

/-- What a policy that never gives up writes in the place of bytes that are no character. -/
def Policy.substitute? : Policy → Option (Bytes → Text)
  | .ignore => some fun _ => []
  | .replace => some fun _ => [.replacement]
  | .backslash => some fun bad => bad.flatMap Recovery.escape
  | .surrogateEscape => some fun bad => bad.map Recovery.surrogateOf
  | _ => none

namespace Utf8

variable {p : Policy} {write : Bytes → Text} {b : Bytes} {t : Text}

/-- The bytes read as the text, where `write` tells what stands for each maximal subpart that is no
character. -/
inductive ReadsReplacing (write : Bytes → Text) : Bytes → Text → Prop where
  | nil : ReadsReplacing write [] []
  | char {rest : Bytes} {t : Text} (c : Char) (tail : ReadsReplacing write rest t) :
      ReadsReplacing write (String.utf8EncodeChar c ++ rest) (.ofChar c :: t)
  | bad {bad rest : Bytes} {t : Text} (subpart : MaximalSubpart bad (bad ++ rest))
      (tail : ReadsReplacing write rest t) : ReadsReplacing write (bad ++ rest) (write bad ++ t)

/-- A maximal subpart has at most as many bytes as a character. -/
theorem MaximalSubpart.length_le {bad : Bytes} (h : MaximalSubpart bad b) : bad.length ≤ 4 := by
  rcases h.begins with hone | ⟨c, hc⟩
  · omega
  · have hsize : (String.utf8EncodeChar c).length ≤ 4 := by
      rw [String.length_utf8EncodeChar]
      exact Char.utf8Size_le_four c
    exact Nat.le_trans hc.length_le hsize

/-- Bytes outside ASCII are all remembered, up to four of them. -/
theorem escapable_eq_self {bad : Bytes} (houtside : ∀ a ∈ bad, 0x80 ≤ a.toNat)
    (hlength : bad.length ≤ 4) : Recovery.escapable bad = bad := by
  rw [Recovery.escapable, List.take_of_length_le hlength, List.takeWhile_eq_self_iff]
  intro a ha
  exact decide_eq_true (houtside a ha)

/-- A policy that never gives up writes its text in the place of a maximal subpart. -/
theorem recover_of_subpart (hp : p.substitute? = some write) {failure : DecodeFailure}
    {rest : Bytes} (hmore : failure.more ≤ rest.length)
    (h : MaximalSubpart (failure.first :: rest.take failure.more) b) :
    p.recover failure rest =
      .ok ⟨write (failure.first :: rest.take failure.more), failure.more⟩ := by
  cases p with
  | ignore | replace | backslash =>
    cases hp
    rfl
  | surrogateEscape =>
    cases hp
    have hescapable := escapable_eq_self h.outside h.length_le
    simp only [Policy.recover, hescapable, List.length_take_of_le hmore]
    rfl
  | strict | surrogatePass | encodingOnly | unknown => cases hp

/-- **All bytes read.**  Under a policy that never gives up, all bytes read as a text, with the text
of the policy for each maximal subpart that is no character. -/
theorem exists_reads (hp : p.substitute? = some write) (b : Bytes) :
    ∃ t, Reads .utf8 p b t ∧ ReadsReplacing write b t := by
  induction hn : b.length using Nat.strongRecOn generalizing b with
  | ind n ih =>
  cases b with
  | nil => exact ⟨[], .nil, .nil⟩
  | cons first rest =>
    have hshorter (k : Nat) : (rest.drop k).length < n := by
      rw [← hn, List.length_drop, List.length_cons]
      omega
    cases hhead : (scan first rest).settled with
    | char d more =>
      have hscan : scan first rest = .char d more := by
        cases hscan : scan first rest <;> rw [hscan] at hhead <;> cases hhead
        rfl
      obtain ⟨t, hreads, hreplacing⟩ := ih _ (hshorter more) _ rfl
      refine ⟨d :: t, .char hscan hreads, ?_⟩
      obtain ⟨c, bytes, later, hc, rfl, rfl, rfl⟩ := exists_encodeChar_of_scan hscan
      rw [List.drop_left] at hreplacing
      have hb : first :: (bytes ++ later) = String.utf8EncodeChar c ++ later := by rw [hc]; rfl
      rw [hb]
      exact .char c hreplacing
    | invalid more reason =>
      have hsubpart : MaximalSubpart (first :: rest.take more) (first :: rest) :=
        maximalSubpart_of_scan hhead
      have hmore : more ≤ rest.length := stable.more_le_of_settled hhead
      obtain ⟨t, hreads, hreplacing⟩ := ih _ (hshorter more) _ rfl
      have hrecover (start : Nat) : p.recover ⟨.utf8, first, start, more, reason⟩ rest =
          .ok ⟨write (first :: rest.take more), more⟩ := recover_of_subpart hp hmore hsubpart
      have hsettled : (Scheme.scan .utf8 first rest).settled = .invalid more reason := hhead
      refine ⟨write (first :: rest.take more) ++ t, .invalid hsettled hrecover hreads, ?_⟩
      have hb : first :: rest = (first :: rest.take more) ++ rest.drop more := by
        rw [List.cons_append, List.take_append_drop]
      rw [hb]
      exact .bad (by rw [← hb]; exact hsubpart) hreplacing
    | incomplete more reason =>
      cases hscan : scan first rest <;> rw [hscan] at hhead <;> cases hhead

/-! ### Bytes that are remembered -/

/-- The bytes of a code point, where a lone surrogate can remember a byte outside ASCII. -/
def escapedBytes? (c : CodePoint) : Option Bytes :=
  if c.isSurrogate then
    if 0xDC80 ≤ c.toNat ∧ c.toNat ≤ 0xDCFF then some [UInt8.ofNat (c.toNat - 0xDC00)] else none
  else some (String.utf8EncodeChar (Char.ofNat c.toNat))

/-- The bytes of a text, if all of its surrogates remember bytes. -/
def encodeEscaped? : Text → Option Bytes
  | [] => some []
  | c :: t => (escapedBytes? c).bind fun bytes => (encodeEscaped? t).map (bytes ++ ·)

theorem encodeEscaped?_cons {c : CodePoint} {bytes : Bytes} (hc : escapedBytes? c = some bytes)
    (ht : encodeEscaped? t = some b) : encodeEscaped? (c :: t) = some (bytes ++ b) := by
  rw [encodeEscaped?, hc, ht]
  rfl

theorem isSurrogate_iff (c : CodePoint) :
    c.isSurrogate = true ↔ 0xD800 ≤ c.toNat ∧ c.toNat ≤ 0xDFFF := by
  simp [CodePoint.isSurrogate]

theorem escapedBytes?_ofChar (c : Char) :
    escapedBytes? (.ofChar c) = some (String.utf8EncodeChar c) := by
  have hsurrogate : ¬(CodePoint.ofChar c).isSurrogate = true := by
    have hvalid : c.toNat < 0xD800 ∨ 0xDFFF < c.toNat ∧ c.toNat < 0x110000 := c.valid
    have hpoint : (CodePoint.ofChar c).toNat = c.toNat := rfl
    rw [isSurrogate_iff, hpoint]
    omega
  rw [escapedBytes?, if_neg hsurrogate]
  exact congrArg (some ∘ String.utf8EncodeChar) (Char.ofNat_toNat c)

theorem escapedBytes?_surrogateOf {a : UInt8} (h : 0x80 ≤ a.toNat) :
    escapedBytes? (Recovery.surrogateOf a) = some [a] := by
  have hlt : a.toNat < 0x100 := a.toNat_lt
  have hpoint : (Recovery.surrogateOf a).toNat = 0xDC00 + a.toNat := rfl
  have hsurrogate : (Recovery.surrogateOf a).isSurrogate = true := by
    rw [isSurrogate_iff, hpoint]
    omega
  have hrange : 0xDC80 ≤ (Recovery.surrogateOf a).toNat ∧
      (Recovery.surrogateOf a).toNat ≤ 0xDCFF := by
    rw [hpoint]
    omega
  rw [escapedBytes?, if_pos hsurrogate, if_pos hrange, hpoint, Nat.add_sub_cancel_left,
    UInt8.ofNat_toNat]

/-- **Nothing is lost** under the policy that remembers bytes. -/
theorem encodeEscaped?_of_reads (h : ReadsReplacing (·.map Recovery.surrogateOf) b t) :
    encodeEscaped? t = some b := by
  induction h with
  | nil => rfl
  | char c _ ih => exact encodeEscaped?_cons (escapedBytes?_ofChar c) ih
  | @bad bad rest t subpart _ ih =>
    -- Byte by byte, each of them lies outside ASCII.
    have houtside : ∀ a ∈ bad, 0x80 ≤ a.toNat := subpart.outside
    clear subpart
    induction bad with
    | nil => exact ih
    | cons a bad ihbad =>
      have hbad : encodeEscaped? (bad.map Recovery.surrogateOf ++ t) = some (bad ++ rest) :=
        ihbad fun a' ha' => houtside a' (List.mem_cons_of_mem a ha')
      have ha : escapedBytes? (Recovery.surrogateOf a) = some [a] :=
        escapedBytes?_surrogateOf (houtside a List.mem_cons_self)
      have hall : encodeEscaped? (Recovery.surrogateOf a :: (bad.map Recovery.surrogateOf ++ t)) =
          some ([a] ++ (bad ++ rest)) := encodeEscaped?_cons ha hbad
      exact hall

end Utf8

end PlacedText
