import PlacedText.Encoding.Decoder
import PlacedText.Proofs.Encoding.Wide

/-!
# Decoders at a byte order mark

A byte order mark is `U+FEFF`, encoded like the characters behind it.  As long as a decoder has only
some of its bytes, it waits (`Decoder.feed_of_short`).  The piece that completes the mark settles
the scheme: the mark is dropped, once, and what is behind it is decoded
(`Decoder.feed_of_mark`).  A `U+FEFF` further behind is a character like others.
-/

namespace PlacedText

/-! ### Marks -/

namespace MarkedEncoding

/-- The scheme of the data behind a mark in a byte order. -/
def scheme : MarkedEncoding → ByteOrder → Scheme
  | .utf8, _ => .utf8
  | .utf16, order => .utf16 order
  | .utf32, order => .utf32 order

/-- A character behind a mark in a byte order. -/
def encodeChar : MarkedEncoding → ByteOrder → Char → Bytes
  | .utf8, _ => String.utf8EncodeChar
  | .utf16, order => Utf16.encodeChar order
  | .utf32, order => Utf32.encodeChar order

/-- The mark of a byte order. -/
def mark (e : MarkedEncoding) (order : ByteOrder) : Bytes := e.encodeChar order '\uFEFF'

variable (e : MarkedEncoding) (order : ByteOrder)

theorem finds : Scheme.Finds (e.scheme order) (e.encodeChar order) := by
  cases e with
  | utf8 => exact Utf8.finds
  | utf16 => exact Utf16.finds order
  | utf32 => exact Utf32.finds order

theorem stable : Scheme.Stable (e.scheme order) := by
  cases e with
  | utf8 => exact Utf8.stable
  | utf16 => exact Utf16.stable order
  | utf32 => exact Utf32.stable order

theorem mark_length_pos : 0 < (e.mark order).length := by
  cases e <;> cases order <;> decide

theorem mark_utf8 : mark .utf8 order = Decoder.mark8 := by
  cases order <;> decide

example : mark .utf16 .big ++ ['a', '😀'].flatMap (encodeChar .utf16 .big) =
    [0xFE, 0xFF, 0x00, 0x61, 0xD8, 0x3D, 0xDE, 0x00] := by decide

end MarkedEncoding

/-- The bytes are the characters in the encoding.  An encoding that begins with a mark leaves the
byte order to the one who writes. -/
inductive Encoding.Writes (cs : List Char) : Encoding → Bytes → Prop where
  /-- The characters alone. -/
  | plain (e : MarkedEncoding) (order : ByteOrder) :
      Writes cs (.plain (e.scheme order)) (cs.flatMap (e.encodeChar order))
  /-- A mark, and then the characters in the byte order of the mark. -/
  | marked (e : MarkedEncoding) (order : ByteOrder) :
      Writes cs (.marked e) (e.mark order ++ cs.flatMap (e.encodeChar order))

/-! ### Decoding at a mark -/

namespace Decoder

variable {d : Decoder} {e : MarkedEncoding} {order : ByteOrder} {data : Bytes} {final : Bool}

theorem order16?_of_short (h : data.length < 2) : order16? data = none := by
  unfold order16?
  split
  · simp only [List.length_cons] at h; omega
  · simp only [List.length_cons] at h; omega
  · rfl

theorem order32?_of_short (h : data.length < 4) : order32? data = none := by
  unfold order32?
  split
  · simp only [List.length_cons] at h; omega
  · simp only [List.length_cons] at h; omega
  · rfl

/-- Data that holds no unit yet waits as a whole. -/
theorem decodeUnmarked_of_waiting {scheme : Scheme} {bits : Nat} (hbits : 0 < bits)
    (h : DecodeMode.decodeOnto ⟨scheme, d.policy, false⟩ 0 [] data = .ok ⟨[], data⟩) :
    decodeUnmarked scheme bits data false d = .ok [] { d with pending := data } := by
  have hdecode : decodeIn scheme 0 data false d = .ok [] { d with pending := data } := by
    rw [decodeIn, DecodeMode.decode, h]
  rw [decodeUnmarked, hdecode]
  simp only [Nat.sub_self, Nat.mul_zero]
  rw [if_neg (Nat.not_le.2 hbits)]

/-- No character is found in data that is shorter than a unit. -/
theorem decodeOnto_of_short {scheme : Scheme} {p : Policy} (h : ∀ first rest, data = first :: rest →
    ¬(scheme.scan first rest).Decided) :
    DecodeMode.decodeOnto ⟨scheme, p, false⟩ 0 [] data = .ok ⟨[], data⟩ := by
  cases data with
  | nil => rw [DecodeMode.decodeOnto]; rfl
  | cons first rest => exact decodeOnto_of_not_decided (h first rest rfl) 0 []

/-- **In front of a mark.**  As long as only some bytes of a mark are there, nothing is decoded. -/
theorem decodeAll_of_short (h : data <+: e.mark order) (hshort : data.length < (e.mark order).length)
    (d : Decoder) : decodeAll (.atMark e) data false d = .ok [] { d with pending := data } := by
  cases e with
  | utf8 =>
    rw [MarkedEncoding.mark_utf8] at h hshort
    show decodeUtf8 data false d = _
    rw [decodeUtf8, if_pos]
    rw [Bool.and_eq_true, decide_eq_true_eq, List.isPrefixOf_iff_prefix]
    exact ⟨hshort, h⟩
  | utf16 =>
    have hlength : data.length < 2 := by cases order <;> exact hshort
    show decodeUtf16 data false d = _
    rw [decodeUtf16, order16?_of_short hlength]
    refine decodeUnmarked_of_waiting (by decide) (decodeOnto_of_short ?_)
    rintro first rest rfl
    match rest, hlength with
    | [], _ => exact id
  | utf32 =>
    have hlength : data.length < 4 := by cases order <;> exact hshort
    show decodeUtf32 data false d = _
    rw [decodeUtf32, order32?_of_short hlength]
    refine decodeUnmarked_of_waiting (by decide) (decodeOnto_of_short ?_)
    rintro first rest rfl
    match rest, hlength with
    | [], _ => exact id
    | [b], _ => exact id
    | [b, c], _ => exact id

theorem order16?_mark (order : ByteOrder) (data : Bytes) :
    order16? (MarkedEncoding.mark .utf16 order ++ data) = some (order, data) := by
  cases order <;> rfl

theorem order32?_mark (order : ByteOrder) (data : Bytes) :
    order32? (MarkedEncoding.mark .utf32 order ++ data) = some (order, data) := by
  cases order <;> rfl

/-- **Behind a mark.**  The mark is dropped, and what is behind it is decoded in its scheme. -/
theorem decodeAll_of_mark {decoding : Decoding} (h : ∀ place,
    DecodeMode.decodeOnto ⟨e.scheme order, d.policy, final⟩ place [] data = .ok decoding) :
    decodeAll (.atMark e) (e.mark order ++ data) final d =
      .ok decoding.text
        { d with phase := .settled (e.scheme order), pending := decoding.rest } := by
  have hdecode (place : Nat) {d' : Decoder} (hpolicy : d'.policy = d.policy) :
      decodeIn (e.scheme order) place data final d' =
        .ok decoding.text { d' with pending := decoding.rest } := by
    rw [decodeIn, DecodeMode.decode, hpolicy, h place]
  have hmarked (width : Nat) : decodeMarked (e.scheme order) width data final d =
      .ok decoding.text
        { d with phase := .settled (e.scheme order), pending := decoding.rest } := by
    simp only [decodeMarked, bind, EStateM.bind, hdecode width rfl]
    rfl
  cases e with
  | utf8 =>
    have hlong : ¬(mark8 ++ data).length < mark8.length :=
      Nat.not_lt.2 (List.prefix_append mark8 data).length_le
    have hmark : mark8.isPrefixOf (mark8 ++ data) = true :=
      List.isPrefixOf_iff_prefix.2 (List.prefix_append mark8 data)
    rw [MarkedEncoding.mark_utf8]
    show decodeUtf8 (mark8 ++ data) final d = _
    rw [decodeUtf8, decide_eq_false hlong, Bool.false_and, if_neg Bool.false_ne_true, if_pos hmark,
      List.drop_left]
    exact hdecode 0 rfl
  | utf16 =>
    show decodeUtf16 _ final d = _
    rw [decodeUtf16, order16?_mark]
    exact hmarked 2
  | utf32 =>
    show decodeUtf32 _ final d = _
    rw [decodeUtf32, order32?_mark]
    exact hmarked 4

/-! ### Feeding -/

variable {p : Policy} {piece : Bytes}

/-- A decoder that has some bytes of the mark waits for the others. -/
theorem feed_of_short (hphase : d.phase = .atMark e) (hpolicy : d.policy = p)
    (h : d.pending ++ piece <+: e.mark order)
    (hshort : (d.pending ++ piece).length < (e.mark order).length) :
    d.feed piece false = .ok [] ⟨.atMark e, p, d.pending ++ piece⟩ := by
  rw [feed, hphase, decodeAll_of_short h hshort d, hphase, hpolicy]

/-- A decoder that has all bytes of the mark drops them and decodes what is behind them. -/
theorem feed_of_mark {decoding : Decoding} (hphase : d.phase = .atMark e) (hpolicy : d.policy = p)
    (hdata : d.pending ++ piece = e.mark order ++ data) (hdecode : ∀ place,
      DecodeMode.decodeOnto ⟨e.scheme order, p, final⟩ place [] data = .ok decoding) :
    d.feed piece final = .ok decoding.text ⟨.settled (e.scheme order), p, decoding.rest⟩ := by
  subst hpolicy
  rw [feed, hphase, hdata]
  exact decodeAll_of_mark hdecode

end Decoder

end PlacedText
