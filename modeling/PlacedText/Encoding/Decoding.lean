import PlacedText.Encoding.Recovery
import PlacedText.Encoding.SingleByte
import PlacedText.Encoding.Utf8

/-!
# Decoding

Bytes are decoded from the front, head after head.  Data that stops inside a character is left
over, unless it is known that no data follows; then it is no character and the policy decides.
-/

namespace PlacedText

/-- What stands at the front of the first byte and those after it, in a scheme. -/
def Scheme.scan : Scheme → UInt8 → Bytes → Head
  | .utf8, first, rest => Utf8.scan first rest
  | .utf16 order, first, rest => Utf16.scan order first rest
  | .utf32 order, first, rest => Utf32.scan order first rest
  | .ascii, first, _ => Ascii.scan first
  | .latin1, first, _ => Latin1.scan first
  | .cp1252, first, _ => Cp1252.scan first

/-- Decoded text, and the bytes left over. -/
structure Decoding where
  text : Text
  rest : Bytes
deriving DecidableEq

/-- How bytes are decoded: the scheme, the policy, and whether the data ends with them. -/
structure DecodeMode where
  scheme : Scheme
  policy : Policy
  final : Bool

/-- What stands at the front of the first byte and those after it; what is incomplete is settled
if the data ends with them. -/
def DecodeMode.scan (m : DecodeMode) (first : UInt8) (rest : Bytes) : Head :=
  if m.final then (m.scheme.scan first rest).settled else m.scheme.scan first rest

/-- Decodes bytes that start at a place of the data; `done` is what was decoded before, latest
first. -/
def DecodeMode.decodeOnto (m : DecodeMode) (place : Nat) (done : Text) :
    Bytes → Except Fault Decoding
  | [] => .ok ⟨done.reverse, []⟩
  | first :: rest =>
    match m.scan first rest with
    | .char c more => decodeOnto m (place + more + 1) (c :: done) (rest.drop more)
    | .invalid more reason =>
      match m.policy.recover ⟨m.scheme, first, place, more, reason⟩ rest with
      | .error e => .error e
      | .ok r => decodeOnto m (place + r.more + 1) (r.text.reverse ++ done) (rest.drop r.more)
    | .incomplete _ _ => .ok ⟨done.reverse, first :: rest⟩
termination_by bytes => bytes.length
decreasing_by all_goals simp only [List.length_drop, List.length_cons]; omega

/-- Decodes bytes that start at a place of the data. -/
def DecodeMode.decode (m : DecodeMode) (place : Nat) (bytes : Bytes) : Except Fault Decoding :=
  m.decodeOnto place [] bytes

/-! ### Size of a decoding -/

theorem DecodeMode.length_le_of_decodeOnto {m : DecodeMode} {place : Nat} {done : Text}
    {bytes : Bytes} {d : Decoding} (h : m.decodeOnto place done bytes = .ok d) :
    d.text.length + 4 * d.rest.length ≤ done.length + 4 * bytes.length := by
  fun_induction DecodeMode.decodeOnto m place done bytes with
  | case1 => cases h; simp
  | case2 place done first rest c more _ ih =>
    have := ih h
    simp only [List.length_cons, List.length_drop] at *
    omega
  | case3 => cases h
  | case4 place done first rest more reason _ r hr ih =>
    have := ih h
    have := Policy.length_le_of_recover hr
    simp only [List.length_cons, List.length_append, List.length_reverse] at *
    omega
  | case5 => cases h; simp

/-- Decoding makes at most four characters of each byte. -/
theorem DecodeMode.length_le_of_decode {m : DecodeMode} {place : Nat} {bytes : Bytes} {d : Decoding}
    (h : m.decode place bytes = .ok d) : d.text.length + 4 * d.rest.length ≤ 4 * bytes.length := by
  have := DecodeMode.length_le_of_decodeOnto h
  simpa using this

end PlacedText
