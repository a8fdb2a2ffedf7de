import PlacedText.Encoding.Policy
import PlacedText.Encoding.Units
import PlacedText.Fault

/-!
# Recovery from bytes that are no character

A policy either stops decoding with a fault or puts some text in the place of bytes that are no
character and says where decoding goes on.  Policies that work byte by byte may go on inside the
bytes in question, and one that reads surrogates may go on behind them.
-/

namespace PlacedText

/-- Text to put in the place of the first byte and `more` bytes after it. -/
structure Recovery where
  text : Text
  more : Nat
deriving DecidableEq

namespace Recovery

/-- The escape that spells a byte with two hexadecimal digits. -/
def escape (b : UInt8) : Text := PlacedText.text "\\x" ++ hexDigits 2 b.toNat

/-- The lone surrogate that remembers a byte. -/
def surrogateOf (b : UInt8) : CodePoint :=
  ⟨0xDC00 + b.toNat, by have := b.toNat_lt; omega⟩

/-- Bytes outside ASCII, at most four of them, at the front of some bytes. -/
def escapable (bytes : Bytes) : Bytes := (bytes.take 4).takeWhile fun b => 0x80 ≤ b.toNat

/-- The number that bytes at the front spell in a scheme, surrogates allowed, and how many bytes
follow the first one. -/
def spelled? (scheme : Scheme) (first : UInt8) (rest : Bytes) : Option (Nat × Nat) :=
  match scheme, rest with
  | .utf8, b :: c :: _ =>
    if first.toNat / 0x10 = 0xE && b.toNat / 0x40 = 2 && c.toNat / 0x40 = 2 then
      some (first.toNat % 0x10 * 0x1000 + b.toNat % 0x40 * 0x40 + c.toNat % 0x40, 2)
    else none
  | .utf16 order, b :: _ => some (order.join16 first b, 1)
  | .utf32 order, b :: c :: d :: _ => some (order.join32 first b c d, 3)
  | _, _ => none

/-- The surrogate that bytes at the front spell. -/
def surrogate? (scheme : Scheme) (first : UInt8) (rest : Bytes) : Option Recovery :=
  match spelled? scheme first rest with
  | none => none
  | some (n, more) =>
    match CodePoint.ofNat? n with
    | none => none
    | some c => if c.isSurrogate then some ⟨[c], more⟩ else none

end Recovery

/-- What a policy does about a failure at the first byte, with `rest` after it. -/
def Policy.recover (p : Policy) (failure : DecodeFailure) (rest : Bytes) : Except Fault Recovery :=
  let bad := failure.first :: rest.take failure.more
  match p with
  | .strict => .error (.undecodable failure)
  | .ignore => .ok ⟨[], failure.more⟩
  | .replace => .ok ⟨[.replacement], failure.more⟩
  | .backslash => .ok ⟨bad.flatMap Recovery.escape, failure.more⟩
  | .surrogateEscape =>
    match Recovery.escapable bad with
    | [] => .error (.undecodable failure)
    | b :: bytes => .ok ⟨Recovery.surrogateOf b :: bytes.map Recovery.surrogateOf, bytes.length⟩
  | .surrogatePass =>
    match Recovery.surrogate? failure.scheme failure.first rest with
    | some r => .ok r
    | none => .error (.undecodable failure)
  | .encodingOnly => .error .encodingPolicy
  | .unknown label => .error (.unknownPolicy label)

/-! ### Size of a recovery -/

theorem Recovery.length_flatMap_escape (bytes : Bytes) :
    (bytes.flatMap Recovery.escape).length = 4 * bytes.length := by
  induction bytes with
  | nil => rfl
  | cons b bytes ih => simp [ih, Recovery.escape, PlacedText.text, hexDigits]; omega

theorem Recovery.length_escapable_le (bytes : Bytes) :
    (Recovery.escapable bytes).length ≤ bytes.length :=
  Nat.le_trans (List.takeWhile_sublist _).length_le (by simp only [List.length_take]; omega)

theorem Recovery.length_eq_one_of_surrogate? {scheme : Scheme} {first : UInt8} {rest : Bytes}
    {r : Recovery} (h : Recovery.surrogate? scheme first rest = some r) : r.text.length = 1 := by
  unfold Recovery.surrogate? at h
  split at h
  · cases h
  · split at h
    · cases h
    · split at h
      · cases h; rfl
      · cases h

/-- A policy puts at most four characters in the place of each byte. -/
theorem Policy.length_le_of_recover {p : Policy} {failure : DecodeFailure} {rest : Bytes}
    {r : Recovery} (h : p.recover failure rest = .ok r) :
    r.text.length + 4 * (rest.drop r.more).length ≤ 4 * (rest.length + 1) := by
  unfold Policy.recover at h
  cases p with
  | strict | encodingOnly | unknown => cases h
  | ignore => cases h; simp only [List.length_nil, List.length_drop]; omega
  | replace => cases h; simp only [List.length_cons, List.length_nil, List.length_drop]; omega
  | backslash =>
    cases h
    simp only [Recovery.length_flatMap_escape, List.length_cons, List.length_take,
      List.length_drop]
    omega
  | surrogateEscape =>
    have hle := Recovery.length_escapable_le (failure.first :: rest.take failure.more)
    simp only [List.length_cons, List.length_take] at hle
    simp only at h
    split at h
    · cases h
    · next heq =>
      rw [heq] at hle
      cases h
      simp only [List.length_cons, List.length_map, List.length_drop] at hle ⊢
      omega
  | surrogatePass =>
    simp only at h
    split at h
    · next heq =>
      cases h
      have := Recovery.length_eq_one_of_surrogate? heq
      simp only [List.length_drop]
      omega
    · cases h

end PlacedText
