import PlacedText.Proofs.Running.Alike
import PlacedText.Proofs.Stream.ChunkSize
import PlacedText.Stream.Device

/-!
# Room for a chunk

Decoded bytes that come through a buffer are read in chunks, and the buffer needs room for each of
them.  How large a chunk is depends on how many characters are missing and on the rate of bytes to
characters in the chunk before it, so a stream may be `Cramped` although little is asked of it.

With less room the stream gives what it would give with room for every size, until a chunk does not
fit (`Device.read_until`).
-/

namespace PlacedText

variable {room most missing : Nat}

/-! ### Filling, step by step -/

namespace Decoded

variable {β : Type} [FiniteStream UInt8 β] {d d₁ : Decoded β} {c : Chunk} {e : Fault}

/-- Filling fails with the chunk that does. -/
theorem fill_of_error (hmissing : missing ≠ 0) (hread : readChunk missing d = .error e d₁)
    (parts : List Text) : fill missing parts d = .error e d₁ := by
  rw [fill, dif_neg hmissing]
  split
  · next h =>
    rw [hread] at h
    cases h
    rfl
  · next h =>
    rw [hread] at h
    cases h

/-- Filling ends with an empty chunk that gives no characters. -/
theorem fill_of_end (hmissing : missing ≠ 0) (hread : readChunk missing d = .ok c d₁)
    (hend : c.empty = true ∧ c.text = []) (parts : List Text) :
    fill missing parts d = .ok parts.reverse.flatten d₁ := by
  rw [fill, dif_neg hmissing]
  split
  · next h =>
    rw [hread] at h
    cases h
  · next h =>
    rw [hread] at h
    cases h
    rw [dif_pos hend]

/-- Filling goes on after any other chunk. -/
theorem fill_of_chunk (hmissing : missing ≠ 0) (hread : readChunk missing d = .ok c d₁)
    (hmore : ¬(c.empty = true ∧ c.text = [])) (parts : List Text) :
    fill missing parts d =
      fill (missing - c.text.length) (c.text.take missing :: parts)
        { d₁ with waiting := c.text.drop missing } := by
  rw [fill, dif_neg hmissing]
  split
  · next h =>
    rw [hread] at h
    cases h
  · next h =>
    rw [hread] at h
    cases h
    rw [dif_neg hmore]

/-- A stream that has nothing waiting fills the answer with chunks. -/
theorem read_of_waiting_nil {n : Nat} (hopen : d.closed = false) (hwaiting : d.waiting = [])
    (hlimit : n ≤ largestSize) :
    InputStream.read n d =
      match fill n [[]] d with
      | .error e d₁ => .error e d₁
      | .ok t d₁ => .ok (.units t) d₁ := by
  obtain ⟨device, decoder, waiting, heldReturn, lastChunk, closed⟩ := d
  obtain rfl : closed = false := hopen
  obtain rfl : waiting = [] := hwaiting
  show read n _ = _
  rw [read, if_neg (Nat.not_lt.2 hlimit), if_neg Bool.false_ne_true]
  cases n with
  | zero => rfl
  | succ n => rfl

/-- A chunk that comes to one character, no carriage return, answers a read of one. -/
theorem read_one_of_feed {answer : Answer UInt8} {device : β} {x : CodePoint} {decoder : Decoder}
    (hopen : d.closed = false) (hwaiting : d.waiting = []) (hheld : d.heldReturn = false)
    (hread : InputStream.read (chunkSize d.lastChunk 1) d.device = .ok answer device)
    (hne : answer.toList ≠ []) (hfeed : d.decoder.feed answer.toList false = .ok [x] decoder)
    (hreturn : x ≠ .carriageReturn) :
    InputStream.read 1 d =
      .ok (.units [x]) { d with device, decoder, lastChunk := (answer.toList.length, 1) } := by
  have hempty : answer.toList.isEmpty = false := List.isEmpty_eq_false_iff.2 hne
  have hshown : holdReturn false false [x] = ([x], false) := by
    simp [holdReturn, hreturn]
  have hchunk : readChunk 1 d =
      .ok ⟨[x], false⟩ { d with device, decoder, lastChunk := (answer.toList.length, 1) } := by
    rw [readChunk, hread]
    simp only [hempty, hfeed, hheld, hshown, List.length_singleton]
  rw [read_of_waiting_nil hopen hwaiting (by decide),
    fill_of_chunk Nat.one_ne_zero hchunk fun h => Bool.false_ne_true h.1]
  have hzero : 1 - [x].length = 0 := rfl
  have hdrop : [x].drop 1 = d.waiting := hwaiting.symm
  rw [hzero, hdrop, fill, dif_pos rfl]
  rfl

/-! ### Decoded streams -/

/-- A chunk does not fit that is to give at most `most` characters. -/
def Cramped (room most : Nat) (d : Decoded β) : Prop :=
  ∃ missing, 0 < missing ∧ missing ≤ most ∧ room < chunkSize d.lastChunk missing

/-- A stream with so much room, and the same one with room for every size. -/
structure RoomAlike (room : Nat) (d d' : Decoded (Buffered β)) : Prop where
  room_eq : d.device.room = room
  roomy : d' = { d with device.room := largestSize }

/-- The fault of a stream that is cramped. -/
def RunsShort (room most : Nat) (e : Fault) (d : Decoded β) : Prop :=
  e = .outOfMemory ∧ d.Cramped room most

variable {d d' : Decoded (Buffered β)}

/-- A chunk is the same, if it fits. -/
theorem readChunk_until (h : RoomAlike room d d') (hpos : 0 < missing) (hmost : missing ≤ most) :
    ResultUntil (RunsShort room most) (RoomAlike room) (readChunk missing d)
      (readChunk missing d') := by
  obtain ⟨rfl, rfl⟩ := h
  rcases Nat.lt_or_ge d.device.room (chunkSize d.lastChunk missing) with hshort | hroom
  · left
    refine ⟨.outOfMemory, d, ?_, rfl, missing, hpos, hmost, hshort⟩
    rw [readChunk, Buffered.read_of_room_lt hshort]
  · right
    have hroomy : chunkSize d.lastChunk missing ≤ largestSize := chunkSize_le _ _
    cases hread : InputStream.read (chunkSize d.lastChunk missing) d.device.device with
    | error e device =>
      rw [readChunk, readChunk, Buffered.read_of_error hroom hread,
        Buffered.read_of_error (b := { d.device with room := largestSize }) hroomy hread]
      exact .error ⟨rfl, rfl⟩
    | ok answer device =>
      rw [readChunk, readChunk, Buffered.read_of_ok hroom hread,
        Buffered.read_of_ok (b := { d.device with room := largestSize }) hroomy hread]
      dsimp only
      cases d.decoder.feed answer.toList answer.toList.isEmpty with
      | error e decoder => exact .error ⟨rfl, rfl⟩
      | ok decoded decoder => exact .ok ⟨rfl, rfl⟩

/-- Filling comes to the same, if all chunks fit. -/
theorem fill_until (h : RoomAlike room d d') (hmost : missing ≤ most) (parts : List Text) :
    ResultUntil (RunsShort room most) (RoomAlike room) (fill missing parts d)
      (fill missing parts d') := by
  fun_induction fill missing parts d generalizing d' with
  | case1 parts d =>
    rw [fill, dif_pos rfl]
    exact .inr (.ok h)
  | case2 missing parts d hmissing e d₁ hread =>
    have hchunk := readChunk_until h (Nat.pos_of_ne_zero hmissing) hmost
    rw [hread] at hchunk
    rcases hchunk.of_error with hshort | ⟨d₁', hread', h₁⟩
    · exact .inl ⟨e, d₁, rfl, hshort⟩
    · rw [fill_of_error hmissing hread']
      exact .inr (.error h₁)
  | case3 missing parts d hmissing c d₁ hread hend =>
    have hchunk := readChunk_until h (Nat.pos_of_ne_zero hmissing) hmost
    rw [hread] at hchunk
    obtain ⟨d₁', hread', h₁⟩ := hchunk.of_ok
    rw [fill_of_end hmissing hread' hend]
    exact .inr (.ok h₁)
  | case4 missing parts d hmissing c d₁ hread hmore ih =>
    have hchunk := readChunk_until h (Nat.pos_of_ne_zero hmissing) hmost
    rw [hread] at hchunk
    obtain ⟨d₁', hread', h₁⟩ := hchunk.of_ok
    rw [fill_of_chunk hmissing hread' hmore]
    refine ih ⟨h₁.room_eq, ?_⟩ (Nat.le_trans (Nat.sub_le _ _) hmost)
    rw [h₁.roomy]

/-- A read gives the same, if all of its chunks fit. -/
theorem read_until (h : RoomAlike room d d') {n : Nat} (hmost : n ≤ most) :
    ResultUntil (RunsShort room most) (RoomAlike room) (InputStream.read n d)
      (InputStream.read n d') := by
  obtain ⟨hroom, rfl⟩ := h
  show ResultUntil _ _ (read n d) (read n { d with device.room := largestSize })
  rw [read, read]
  split
  · exact .inr (.error ⟨hroom, rfl⟩)
  · split
    · exact .inr (.error ⟨hroom, rfl⟩)
    · dsimp only
      have hdropped : RoomAlike room { d with waiting := d.waiting.drop n }
          { d with waiting := d.waiting.drop n, device.room := largestSize } := ⟨hroom, rfl⟩
      have hfill := fill_until hdropped
        (Nat.le_trans (Nat.sub_le n (d.waiting.take n).length) hmost) [d.waiting.take n]
      generalize fill _ _ { d with waiting := d.waiting.drop n } = result at hfill ⊢
      cases result with
      | ok t d₁ =>
        obtain ⟨d₁', hfill', h₁⟩ := hfill.of_ok
        rw [hfill']
        exact .inr (.ok h₁)
      | error e d₁ =>
        rcases hfill.of_error with hshort | ⟨d₁', hfill', h₁⟩
        · exact .inl ⟨e, d₁, rfl, hshort⟩
        · rw [hfill']
          exact .inr (.error h₁)

omit [FiniteStream UInt8 β] in
/-- With room for every size, every chunk fits. -/
theorem not_cramped_largestSize (d : Decoded (Buffered β)) : ¬d.Cramped largestSize most :=
  fun ⟨missing, _, _, hlt⟩ => Nat.not_lt.2 (chunkSize_le d.lastChunk missing) hlt

/-- A chunk that does not fit makes a read fail for which nothing waits. -/
theorem read_of_room_lt {n : Nat} (hopen : d.closed = false) (hwaiting : d.waiting = [])
    (hpos : 0 < n) (hlimit : n ≤ largestSize)
    (hshort : d.device.room < chunkSize d.lastChunk n) :
    InputStream.read n d = .error .outOfMemory d := by
  have hchunk : readChunk n d = .error .outOfMemory d := by
    rw [readChunk, Buffered.read_of_room_lt hshort]
  rw [read_of_waiting_nil hopen hwaiting hlimit, fill_of_error (Nat.ne_of_gt hpos) hchunk]

/-- A stream of a single character, given at once, is cramped behind it if what is read then is so
much that a chunk for it does not fit. -/
theorem reads_of_room_lt {b : Bytes} {x : CodePoint} {decoder decoder' : Decoder} {n : Nat}
    (hne : b ≠ []) (hfeed : decoder.feed b false = .ok [x] decoder') (hreturn : x ≠ .carriageReturn)
    (hlength : b.length ≤ chunkSize (0, 0) 1) (hfirst : chunkSize (0, 0) 1 ≤ room) (hpos : 0 < n)
    (hlimit : n ≤ largestSize) (hshort : room < chunkSize (b.length, 1) n) :
    ∃ d' : Decoded (Buffered (Script UInt8)),
      InputStream.read 1 ({ device := ⟨{ items := [.units b] }, room⟩, decoder } :
        Decoded (Buffered (Script UInt8))) = .ok (.units [x]) d' ∧
      InputStream.read n d' = .error .outOfMemory d' := by
  have hgives : InputStream.read (chunkSize (0, 0) 1)
      (⟨{ items := [.units b] }, room⟩ : Buffered (Script UInt8)) =
      .ok (.units b) ⟨{ items := [], requests := [chunkSize (0, 0) 1] }, room⟩ :=
    Buffered.read_of_ok hfirst (Script.read_of_length_le rfl hlength)
  exact ⟨_, read_one_of_feed rfl rfl rfl hgives hne hfeed hreturn,
    read_of_room_lt rfl rfl hpos hlimit hshort⟩

end Decoded

/-! ### Devices -/

namespace Device

/-- A chunk of bytes that come through a buffer does not fit. -/
def Cramped (room most : Nat) : Device → Prop
  | .file d => d.Cramped room most
  | .raw d => d.Cramped room most
  | .memory _ | .script _ | .bytes _ => False

/-- The fault of a device that is cramped. -/
def RunsShort (room most : Nat) (e : Fault) (d : Device) : Prop :=
  e = .outOfMemory ∧ d.Cramped room most

/-- With room for every size, every chunk fits. -/
theorem not_cramped_largestSize (d : Device) : ¬d.Cramped largestSize most := by
  cases d with
  | memory | script | bytes => exact id
  | file d => exact d.not_cramped_largestSize
  | raw d => exact d.not_cramped_largestSize

/-- A device with so much room, and the same one with room for every size. -/
inductive RoomAlike (room : Nat) : Device → Device → Prop where
  | file {d d' : Decoded (Buffered (Memory UInt8))} (alike : d.RoomAlike room d') :
      RoomAlike room (.file d) (.file d')
  | raw {d d' : Decoded (Buffered (Script UInt8))} (alike : d.RoomAlike room d') :
      RoomAlike room (.raw d) (.raw d')
  /-- A device without a buffer. -/
  | refl (d : Device) : RoomAlike room d d

/-- What parts of devices come to alike, the devices do. -/
theorem resultUntil_embed {σ τ α : Type} {F : Fault → σ → Prop} {G : Fault → Device → Prop}
    {R : σ → τ → Prop} {S : Device → Device → Prop} {wrap : σ → Device} {wrap' : τ → Device}
    {x : EStateM.Result Fault σ α} {y : EStateM.Result Fault τ α} (h : ResultUntil F R x y)
    (hF : ∀ e s, F e s → G e (wrap s)) (hR : ∀ s t, R s t → S (wrap s) (wrap' t)) :
    ResultUntil G S (embed wrap x) (embed wrap' y) := by
  rcases h with ⟨e, s, rfl, hstop⟩ | halike
  · exact .inl ⟨e, wrap s, rfl, hF e s hstop⟩
  · cases halike with
    | ok hs => exact .inr (.ok (hR _ _ hs))
    | error hs => exact .inr (.error (hR _ _ hs))

/-- **Room.**  A device gives what it would give with room for every size, until a chunk does not
fit. -/
theorem read_until {n : Nat} (hmost : n ≤ most) :
    RunUntil (RunsShort room most) (RoomAlike room) (InputStream.read (σ := Device) n)
      (InputStream.read n) := by
  intro d d' h
  cases h with
  | file alike =>
    exact resultUntil_embed (Decoded.read_until alike hmost) (fun _ _ hshort => hshort)
      fun _ _ => RoomAlike.file
  | raw alike =>
    exact resultUntil_embed (Decoded.read_until alike hmost) (fun _ _ hshort => hshort)
      fun _ _ => RoomAlike.raw
  | refl =>
    right
    generalize InputStream.read n d = result
    cases result with
    | ok a s => exact .ok (.refl s)
    | error e s => exact .error (.refl s)

end Device

end PlacedText
