import PlacedText.Encoding.Decoder
import PlacedText.Stream.Basic

/-!
# Streams of decoded bytes

A `Decoded` stream reads a stream of bytes chunk by chunk, feeds the chunks to a decoder and gives
the text.  A carriage return at the end of a chunk's text waits for the next chunk, so that a line
feed after it comes along with it.
-/

namespace PlacedText

/-- A stream of bytes and what has been decoded of it. -/
structure Decoded (β : Type) where
  device : β
  decoder : Decoder
  /-- Text decoded and not yet given. -/
  waiting : Text := []
  /-- Whether a carriage return is held back behind the text that waits. -/
  heldReturn : Bool := false
  /-- The bytes and characters of the last chunk. -/
  lastChunk : Nat × Nat := (0, 0)
  closed : Bool := false

namespace Decoded

variable {β : Type}

/-- The least number of bytes asked for at once. -/
def leastChunk : Nat := 8192

/-- The number of bytes to ask for if so many characters are missing: as many as they take at the
rate of the last chunk, but at least one byte a character.  The rate is a double, and a product
beyond the largest size counts for nothing. -/
def chunkSize (lastChunk : Nat × Nat) (missing : Nat) : Nat :=
  let rate : Float :=
    if lastChunk.2 = 0 then 1 else lastChunk.1.toFloat / lastChunk.2.toFloat
  let estimate := (if rate < 1 then 1 else rate) * missing.toFloat
  if estimate < largestSize.toFloat then max leastChunk estimate.toUInt64.toNat else leastChunk

/-- Puts a carriage return that was held back in front of decoded text, once it is known what comes
next, and holds back one at the end of the text, unless the data has ended.  Gives the text to be
shown and whether a carriage return is now held back. -/
def holdReturn (held final : Bool) (decoded : Text) : Text × Bool :=
  let joined := if held && (final || !decoded.isEmpty) then .carriageReturn :: decoded else decoded
  if joined.isEmpty then ([], held)
  else if !final && joined.getLast? = some .carriageReturn then (joined.dropLast, true)
  else (joined, false)

/-- A carriage return held back, as text. -/
def heldLength (held : Bool) : Nat := if held then 1 else 0

theorem length_holdReturn (held final : Bool) (decoded : Text) :
    (holdReturn held final decoded).1.length + heldLength (holdReturn held final decoded).2 =
      decoded.length + heldLength held := by
  cases held <;> cases final <;> cases decoded <;>
    simp [holdReturn, heldLength] <;> grind

/-- The text of a chunk, and whether the chunk was empty, which means that the data has ended. -/
structure Chunk where
  text : Text
  empty : Bool
deriving DecidableEq

section Reading

variable [FiniteStream UInt8 β]

/-- Reads and decodes a chunk that is to give `missing` characters. -/
def readChunk (missing : Nat) : EStateM Fault (Decoded β) Chunk := fun d =>
  match InputStream.read (chunkSize d.lastChunk missing) d.device with
  | .error e device => .error e { d with device }
  | .ok answer device =>
    let bytes := answer.toList
    match d.decoder.feed bytes bytes.isEmpty with
    | .error e decoder => .error e { d with device, decoder }
    | .ok decoded decoder =>
      let shown := holdReturn d.heldReturn bytes.isEmpty decoded
      .ok ⟨shown.1, bytes.isEmpty⟩
        { d with
          device, decoder
          heldReturn := shown.2
          lastChunk := (bytes.length, shown.1.length) }

/-- A bound on the characters that are still to be decoded. -/
def undecoded (d : Decoded β) : Nat :=
  heldLength d.heldReturn + 4 * (d.decoder.pending.length + FiniteStream.supply d.device)

theorem undecoded_le_of_readChunk {missing : Nat} {d d' : Decoded β} {c : Chunk}
    (h : readChunk missing d = .ok c d') : c.text.length + undecoded d' ≤ undecoded d := by
  unfold readChunk at h
  split at h
  · cases h
  · next hread =>
    simp only at h
    split at h
    · cases h
    · next hfeed =>
      cases h
      have h1 := FiniteStream.supply_read hread
      have h2 := Decoder.length_le_of_feed hfeed
      simp only [undecoded]
      rw [← Nat.add_assoc, length_holdReturn]
      omega

theorem waiting_eq_of_readChunk {missing : Nat} {d d' : Decoded β} {c : Chunk}
    (h : readChunk missing d = .ok c d') : d'.waiting = d.waiting := by
  unfold readChunk at h
  split at h
  · cases h
  · simp only at h
    split at h <;> cases h
    rfl

theorem supply_le_of_readChunk {missing : Nat} {d d' : Decoded β} {c : Chunk}
    (h : readChunk missing d = .ok c d') :
    FiniteStream.supply d'.device ≤ FiniteStream.supply d.device ∧
      (c.empty = false → FiniteStream.supply d'.device < FiniteStream.supply d.device) := by
  unfold readChunk at h
  split at h
  · cases h
  · next answer _ hread =>
    simp only at h
    split at h
    · cases h
    · cases h
      have h1 := FiniteStream.supply_read hread
      refine ⟨by simp only; omega, fun hne => ?_⟩
      have h2 : 0 < answer.toList.length := by
        cases hl : answer.toList with
        | nil => simp [hl] at hne
        | cons => simp
      simp only
      omega

/-- Decodes chunks until `missing` characters are there, or an empty chunk gives no more
characters; `parts` holds what is there already, latest first. -/
def fill (missing : Nat) (parts : List Text) (d : Decoded β) :
    EStateM.Result Fault (Decoded β) Text :=
  if _ : missing = 0 then .ok parts.reverse.flatten d
  else
    match _ : readChunk missing d with
    | .error e d' => .error e d'
    | .ok c d' =>
      if _ : c.empty = true ∧ c.text = [] then .ok parts.reverse.flatten d'
      else
        fill (missing - c.text.length) (c.text.take missing :: parts)
          { d' with waiting := c.text.drop missing }
termination_by (FiniteStream.supply d.device, missing)
decreasing_by
  next hmissing hread hmore =>
  obtain ⟨hle, hlt⟩ := supply_le_of_readChunk hread
  cases hempty : c.empty with
  | false => exact Prod.Lex.left _ _ (hlt hempty)
  | true =>
    have : 0 < c.text.length := List.length_pos_iff.2 fun h => hmore ⟨hempty, h⟩
    rcases Nat.lt_or_eq_of_le hle with h | h
    · exact Prod.Lex.left _ _ h
    · simp only [h]
      exact Prod.Lex.right _ (by omega)

/-- Gives the next `n` characters, or fewer at the end of the data.  Characters already taken are
lost if there is a fault. -/
def read (n : Nat) : EStateM Fault (Decoded β) (Answer CodePoint) := fun d =>
  if largestSize < n then .error .oversized d
  else if d.closed then .error .bytesClosed d
  else
    let taken := d.waiting.take n
    match fill (n - taken.length) [taken] { d with waiting := d.waiting.drop n } with
    | .error e d' => .error e d'
    | .ok t d' => .ok (.units t) d'

/-- Closes the stream of bytes, and with it the stream of characters. -/
def close : EStateM Fault (Decoded β) Unit := fun d =>
  match InputStream.close d.device with
  | .ok u device => .ok u { d with closed := true, device }
  | .error e device => .error e { d with closed := true, device }

/-! ### Supply -/

theorem supply_le_of_fill {missing : Nat} {parts : List Text} {d d' : Decoded β} {t : Text}
    (h : fill missing parts d = .ok t d') :
    t.length + (d'.waiting.length + undecoded d') ≤
      parts.flatten.length + (d.waiting.length + undecoded d) := by
  fun_induction fill missing parts d with
  | case1 => cases h; simp [List.length_flatten]
  | case2 => cases h
  | case3 _ _ _ _ _ _ hread _ =>
    cases h
    have h1 := undecoded_le_of_readChunk hread
    have h2 := waiting_eq_of_readChunk hread
    simp only [h2, List.length_flatten, List.map_reverse, List.sum_reverse]
    omega
  | case4 _ _ _ _ _ _ hread _ ih =>
    have h1 := undecoded_le_of_readChunk hread
    have h2 := ih h
    simp only [List.flatten_cons, List.length_append, List.length_take, List.length_drop,
      undecoded] at *
    omega

instance : FiniteStream CodePoint (Decoded β) where
  read := read
  close := close
  supply d := d.waiting.length + undecoded d
  supply_read {n s s' a} h := by
    unfold read at h
    split at h
    · cases h
    · split at h
      · cases h
      · simp only at h
        split at h
        · cases h
        · next hfill =>
          cases h
          have := supply_le_of_fill hfill
          simp only [List.flatten_cons, List.flatten_nil, List.append_nil, List.length_take,
            List.length_drop, undecoded] at this
          simp only [Answer.toList, undecoded]
          omega

end Reading

end Decoded

end PlacedText
