import PlacedText.Encoding.Decoding
import PlacedText.Encoding.Label

/-!
# Decoders

A decoder is fed bytes piece by piece and gives the text that they complete; bytes that stop inside
a character wait for the next piece.  At the start of an encoding with a byte order mark it first
has to see whether there is one, and which.
-/

namespace PlacedText

/-- What a decoder knows about the scheme of its data. -/
inductive DecoderPhase where
  /-- The scheme is known. -/
  | settled (scheme : Scheme)
  /-- A byte order mark may still come. -/
  | atMark (encoding : MarkedEncoding)
deriving DecidableEq

/-- A decoder between two pieces of data. -/
structure Decoder where
  phase : DecoderPhase
  policy : Policy
  /-- Bytes that wait for more. -/
  pending : Bytes := []
deriving DecidableEq

namespace Decoder

/-- A decoder at the start of its data. -/
def start (e : Encoding) (policy : Policy) : Decoder :=
  match e with
  | .plain scheme => { phase := .settled scheme, policy }
  | .marked encoding => { phase := .atMark encoding, policy }

/-- The byte order mark in UTF-8. -/
def mark8 : Bytes := [0xEF, 0xBB, 0xBF]

/-- The byte orders that the first two bytes can announce in UTF-16. -/
def order16? : Bytes → Option (ByteOrder × Bytes)
  | 0xFF :: 0xFE :: rest => some (.little, rest)
  | 0xFE :: 0xFF :: rest => some (.big, rest)
  | _ => none

/-- The byte orders that the first four bytes can announce in UTF-32. -/
def order32? : Bytes → Option (ByteOrder × Bytes)
  | 0xFF :: 0xFE :: 0x00 :: 0x00 :: rest => some (.little, rest)
  | 0x00 :: 0x00 :: 0xFE :: 0xFF :: rest => some (.big, rest)
  | _ => none

/-- Decodes data in a scheme; the data starts at a place of what is decoded at once.  A fault
leaves the decoder as it was. -/
def decodeIn (scheme : Scheme) (place : Nat) (data : Bytes) (final : Bool) :
    EStateM Fault Decoder Text := fun d =>
  match DecodeMode.decode ⟨scheme, d.policy, final⟩ place data with
  | .error e => .error e d
  | .ok decoding => .ok decoding.text { d with pending := decoding.rest }

/-- Decodes data whose byte order is known from a mark of `width` bytes, which is not part of the
data.  The order is kept unless there is a fault. -/
def decodeMarked (scheme : Scheme) (width : Nat) (data : Bytes) (final : Bool) :
    EStateM Fault Decoder Text := do
  let decoded ← decodeIn scheme width data final
  modify fun d => { d with phase := .settled scheme }
  return decoded

/-- Decodes data that does not begin with the mark it needs.  Data too short to hold a unit of
`bits` may be undecided still; whatever is wrong with the data in little-endian order comes before
the missing mark. -/
def decodeUnmarked (scheme : Scheme) (bits : Nat) (data : Bytes) (final : Bool) :
    EStateM Fault Decoder Text := fun d =>
  match decodeIn scheme 0 data final d with
  | .error e d' => .error e d'
  | .ok decoded d' =>
    if bits ≤ 8 * (data.length - d'.pending.length) then .error (.noByteOrderMark bits) d
    else .ok decoded d'

/-- Decodes data that begins with a mark in UTF-8 or has none.  Data that may still become the mark
waits; all other data settles the question, also if there is a fault in it. -/
def decodeUtf8 (data : Bytes) (final : Bool) : EStateM Fault Decoder Text := fun d =>
  if data.length < mark8.length && data.isPrefixOf mark8 then .ok [] { d with pending := data }
  else
    let data := if mark8.isPrefixOf data then data.drop mark8.length else data
    decodeIn .utf8 0 data final { d with phase := .settled .utf8 }

/-- Decodes data that begins with a mark in UTF-16, which tells the byte order. -/
def decodeUtf16 (data : Bytes) (final : Bool) : EStateM Fault Decoder Text := fun d =>
  match order16? data with
  | some (order, rest) => decodeMarked (.utf16 order) 2 rest final d
  | none => decodeUnmarked (.utf16 .little) 16 data final d

/-- Decodes data that begins with a mark in UTF-32, which tells the byte order. -/
def decodeUtf32 (data : Bytes) (final : Bool) : EStateM Fault Decoder Text := fun d =>
  match order32? data with
  | some (order, rest) => decodeMarked (.utf32 order) 4 rest final d
  | none => decodeUnmarked (.utf32 .little) 32 data final d

/-- Decodes data as a phase asks. -/
def decodeAll (phase : DecoderPhase) (data : Bytes) (final : Bool) :
    EStateM Fault Decoder Text :=
  match phase with
  | .settled scheme => decodeIn scheme 0 data final
  | .atMark .utf8 => decodeUtf8 data final
  | .atMark .utf16 => decodeUtf16 data final
  | .atMark .utf32 => decodeUtf32 data final

/-- Feeds a piece of data; `final` says that no more will follow.  After a fault the piece is lost,
and the bytes that waited before it go on waiting. -/
def feed (piece : Bytes) (final : Bool) : EStateM Fault Decoder Text := fun d =>
  decodeAll d.phase (d.pending ++ piece) final d

/-! ### Size of what a decoder gives -/

theorem length_le_of_decodeIn {scheme : Scheme} {place : Nat} {data : Bytes} {final : Bool}
    {d d' : Decoder} {t : Text} (h : decodeIn scheme place data final d = .ok t d') :
    t.length + 4 * d'.pending.length ≤ 4 * data.length := by
  unfold decodeIn at h
  split at h
  · cases h
  · next heq =>
    cases h
    exact DecodeMode.length_le_of_decode heq

theorem length_le_of_decodeMarked {scheme : Scheme} {width : Nat} {data : Bytes} {final : Bool}
    {d d' : Decoder} {t : Text} (h : decodeMarked scheme width data final d = .ok t d') :
    t.length + 4 * d'.pending.length ≤ 4 * data.length := by
  simp only [decodeMarked, bind, EStateM.bind] at h
  split at h
  · next heq =>
    cases h
    have := length_le_of_decodeIn heq
    exact this
  · cases h

theorem length_le_of_decodeUnmarked {scheme : Scheme} {bits : Nat} {data : Bytes} {final : Bool}
    {d d' : Decoder} {t : Text} (h : decodeUnmarked scheme bits data final d = .ok t d') :
    t.length + 4 * d'.pending.length ≤ 4 * data.length := by
  unfold decodeUnmarked at h
  split at h
  · cases h
  · next heq =>
    split at h
    · cases h
    · cases h
      exact length_le_of_decodeIn heq

theorem length_le_of_order16? {data rest : Bytes} {order : ByteOrder}
    (h : order16? data = some (order, rest)) : rest.length ≤ data.length := by
  unfold order16? at h
  split at h <;> cases h <;> simp only [List.length_cons] <;> omega

theorem length_le_of_order32? {data rest : Bytes} {order : ByteOrder}
    (h : order32? data = some (order, rest)) : rest.length ≤ data.length := by
  unfold order32? at h
  split at h <;> cases h <;> simp only [List.length_cons] <;> omega

theorem length_le_of_decodeUtf8 {data : Bytes} {final : Bool} {d d' : Decoder} {t : Text}
    (h : decodeUtf8 data final d = .ok t d') :
    t.length + 4 * d'.pending.length ≤ 4 * data.length := by
  unfold decodeUtf8 at h
  split at h
  · cases h; simp
  · have := length_le_of_decodeIn h
    split at this
    · simp only [List.length_drop] at this
      omega
    · exact this

theorem length_le_of_decodeUtf16 {data : Bytes} {final : Bool} {d d' : Decoder} {t : Text}
    (h : decodeUtf16 data final d = .ok t d') :
    t.length + 4 * d'.pending.length ≤ 4 * data.length := by
  unfold decodeUtf16 at h
  split at h
  · next heq =>
    have := length_le_of_decodeMarked h
    have := length_le_of_order16? heq
    omega
  · exact length_le_of_decodeUnmarked h

theorem length_le_of_decodeUtf32 {data : Bytes} {final : Bool} {d d' : Decoder} {t : Text}
    (h : decodeUtf32 data final d = .ok t d') :
    t.length + 4 * d'.pending.length ≤ 4 * data.length := by
  unfold decodeUtf32 at h
  split at h
  · next heq =>
    have := length_le_of_decodeMarked h
    have := length_le_of_order32? heq
    omega
  · exact length_le_of_decodeUnmarked h

theorem length_le_of_decodeAll {phase : DecoderPhase} {data : Bytes} {final : Bool} {d d' : Decoder}
    {t : Text} (h : decodeAll phase data final d = .ok t d') :
    t.length + 4 * d'.pending.length ≤ 4 * data.length := by
  unfold decodeAll at h
  split at h
  · exact length_le_of_decodeIn h
  · exact length_le_of_decodeUtf8 h
  · exact length_le_of_decodeUtf16 h
  · exact length_le_of_decodeUtf32 h

/-- A decoder gives at most four characters for each byte that waited or came. -/
theorem length_le_of_feed {piece : Bytes} {final : Bool} {d d' : Decoder} {t : Text}
    (h : feed piece final d = .ok t d') :
    t.length + 4 * d'.pending.length ≤ 4 * (d.pending.length + piece.length) := by
  have := length_le_of_decodeAll h
  simpa only [List.length_append] using this

end Decoder

end PlacedText
