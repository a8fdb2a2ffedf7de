import PlacedText.Proofs.Opening
import PlacedText.Proofs.Reader.Ending
import PlacedText.Proofs.Reader.SourceAlike
import PlacedText.Proofs.Stream.Room

/-!
# Readers with little room

Files and scripted streams of bytes are read through a buffer, which needs room for each chunk.  A
reader that is opened on one with less room is compared with the reader that is opened on it with
room for every size.  They run alike until a chunk does not fit (`Reader.readUntil_room`), so that
what is known of the one is known of the other, up to there (`Reader.drain_of_roomy`).
-/

namespace PlacedText

open Running

variable {room most : Nat} {settings : Settings} {o : Origin}

/-- The bytes of the origin come through a buffer. -/
def Origin.Buffered : Origin → Prop
  | .byteScript _ | .file _ => True
  | .text _ | .textScript _ | .bytes _ | .other _ => False

/-- A reader of the origin has run short of room: a chunk does not fit that is to give at most
`most` characters. -/
structure Origin.RunsShort (o : Origin) (room most : Nat) (e : ReadError) (r : Reader Device) :
    Prop where
  buffered : o.Buffered
  error : e = .fault .outOfMemory
  cramped : r.source.stream.Cramped room most

/-- With room for every size, a reader does not run short of it. -/
theorem Origin.not_runsShort_largestSize {e : ReadError} {r : Reader Device} :
    ¬o.RunsShort largestSize most e r :=
  fun h => Device.not_cramped_largestSize _ h.cramped

/-- A device that can be opened with room for every size can be opened with so much room. -/
theorem Device.exists_open_of_roomy {l : Labels} {d' : Device}
    (hopen : open? largestSize l o = .ok d') :
    ∃ d, open? room l o = .ok d ∧ RoomAlike room d d' ∧ (¬o.Buffered → d = d') := by
  cases o with
  | text t => exact ⟨d', hopen, .refl d', fun _ => rfl⟩
  | textScript s => exact ⟨d', hopen, .refl d', fun _ => rfl⟩
  | bytes b => exact ⟨d', hopen, .refl d', fun _ => rfl⟩
  | other typeName => exact ⟨d', hopen, .refl d', fun _ => rfl⟩
  | byteScript s =>
    rw [open?, Labels.decoded] at hopen ⊢
    cases hdecoder : l.decoder with
    | error e =>
      rw [hdecoder] at hopen
      cases hopen
    | ok decoder =>
      rw [hdecoder] at hopen
      cases hopen
      exact ⟨_, rfl, .raw ⟨rfl, rfl⟩, fun ho => absurd trivial ho⟩
  | file entry =>
    cases entry with
    | directory => cases hopen
    | missing => cases hopen
    | regular b =>
      rw [open?, Labels.decoded] at hopen ⊢
      cases hdecoder : l.decoder with
      | error e =>
        rw [hdecoder] at hopen
        cases hopen
      | ok decoder =>
        rw [hdecoder] at hopen
        cases hopen
        exact ⟨_, rfl, .file ⟨rfl, rfl⟩, fun ho => absurd trivial ho⟩

namespace Reader

/-- A reader with so much room, and the same one with room for every size. -/
def RoomAlike (room most : Nat) : Reader Device → Reader Device → Prop :=
  AlikeOver most (Source.AlikeOver (Device.RoomAlike room))

/-- Their sources pull alike until a chunk does not fit. -/
theorem pullsAlike_room :
    Source.PullsAlike most (fun e s => Device.RunsShort room most e s.stream)
      (Source.AlikeOver (Device.RoomAlike room)) :=
  Source.pullsAlike_over fun _ => Device.read_until

/-- **Until a chunk does not fit**, a reader runs as with room for every size. -/
theorem readUntil_room (ho : o.Buffered) :
    ReadUntil (o.RunsShort room most) (RoomAlike room most) := by
  refine (readUntil_over pullsAlike_room).mono ?_
  rintro _ r ⟨_, rfl, rfl, hcramped⟩
  exact ⟨ho, rfl, hcramped⟩

/-- What can be opened with room for every size can be opened with so much room, and without a
buffer there is no difference. -/
theorem exists_open_of_roomy {r' : Reader Device} (hopen : open? largestSize settings o = .ok r') :
    ∃ r, open? room settings o = .ok r ∧ RoomAlike room settings.blockSize r r' ∧
      (¬o.Buffered → r = r') := by
  rw [open?, Source.open?] at hopen ⊢
  cases hdevice : Device.open? largestSize settings.labels o with
  | error e =>
    rw [hdevice] at hopen
    cases hopen
  | ok d' =>
    rw [hdevice] at hopen
    cases hopen
    obtain ⟨d, hd, halike, hsame⟩ := Device.exists_open_of_roomy hdevice
    refine ⟨ofSource { stream := d } settings, by rw [hd]; rfl, ?_, fun ho => by rw [hsame ho]⟩
    exact ⟨⟨halike, rfl, rfl⟩, rfl, rfl, rfl, Nat.le_refl _⟩

/-- **Draining with little room** gives what draining with room for every size does, or runs short
and has given the front of it. -/
theorem drain_of_roomy {r' : Reader Device} {k : Cursor} {d' : Drained Device PlacedChar}
    (hopen : open? largestSize settings o = .ok r')
    (hdrain : Producer.characters.drain k r' = some d') :
    ∃ r d, open? room settings o = .ok r ∧ Producer.characters.drain k r = some d ∧
      (d.failure = d'.failure ∧ d.items = d'.items ∨
        ∃ e, d.failure = some e ∧ o.RunsShort room settings.blockSize e d.reader ∧
          d.items <+: d'.items) := by
  obtain ⟨r, hr, halike, hsame⟩ := exists_open_of_roomy hopen
  by_cases ho : o.Buffered
  · obtain ⟨d, hd⟩ := Producer.drain_ends Producer.characters_ends k r
    refine ⟨r, d, hr, hd, ?_⟩
    have huntil : DrainedUntil (o.RunsShort room settings.blockSize) _ d
        (Producer.characters.drain k r') :=
      Producer.drain_until (readUntil_room ho).characters halike hd
    rw [hdrain] at huntil
    cases huntil with
    | alike halike' => exact .inl ⟨halike'.failure, halike'.items⟩
    | stopped hfailure hshort hfront => exact .inr ⟨_, hfailure, hshort, hfront d' rfl⟩
  · rw [hsame ho] at hr
    exact ⟨r', d', hr, hdrain, .inl ⟨rfl, rfl⟩⟩

/-! ### A single character -/

/-- If a stream gives one character to be looked at and then fails, draining hands out nothing. -/
theorem drain_of_fault_behind_look {σ : Type} [InputStream CodePoint σ]
    {stream stream₁ stream₂ : σ} {c : CodePoint} {fault : Fault} (hblock : 1 < settings.blockSize)
    (hlook : InputStream.read 1 stream = .ok (.units [c]) stream₁)
    (hfault : InputStream.read (settings.blockSize - 1) stream₁ = .error fault stream₂) :
    ∃ r, Producer.characters.drain .toEnd (ofSource { stream } settings) =
      some ⟨[], some (.fault fault), r⟩ := by
  have hne : [c] ≠ [] := List.cons_ne_nil c []
  have hpull : Source.pull 1 { stream } = .ok [c] { stream := stream₁ } := by
    rw [Source.pull_of_answer rfl hlook]
    rfl
  have hend : Source.atEnd { stream } = .ok false { stream := stream₁, lookahead := [c] } :=
    Source.atEnd_of_peek (Source.peek_of_pull rfl hpull)
  have hagain : Source.atEnd { stream := stream₁, lookahead := [c] } =
      .ok false { stream := stream₁, lookahead := [c] } :=
    Source.atEnd_of_peek (Source.peek_of_lookahead hne)
  have hgather : Source.gather (settings.blockSize - 1) [[c]] { stream := stream₁ } =
      .error fault { stream := stream₂ } :=
    Source.gather_of_pull_fault (Nat.sub_pos_of_lt hblock) (Source.pull_of_fault rfl hfault) _
  have hread : Source.readUpTo settings.blockSize { stream := stream₁, lookahead := [c] } =
      .error fault { stream := stream₂ } := by
    rw [Source.readUpTo_of_lookahead settings.blockSize_pos hne]
    exact hgather
  have hfailed : read (ofSource { stream := stream₁, lookahead := [c] } settings) =
      .error (.fault fault) (ofSource { stream := stream₂ } settings) := by
    apply read_of_precache_error
    rw [precache_of_not_atEnd rfl hagain]
    exact refill_of_readBlock_fault (Source.readBlock_of_fault hread)
  have hnext : Cursor.next .toEnd (ofSource { stream } settings) =
      .error (.fault fault) (ofSource { stream := stream₂ } settings) := by
    have hstart : atEnd (ofSource { stream } settings) =
        .ok false (ofSource { stream := stream₁, lookahead := [c] } settings) :=
      atEnd_of_source rfl hend
    rw [Cursor.next, bind_apply, hstart]
    simp only [Bool.false_eq_true, ↓reduceIte, bind_apply, hfailed]
  refine ⟨ofSource { stream := stream₂ } settings, ?_⟩
  rw [Producer.drain, Producer.drainOnto]
  show Option.bind (some (Cursor.next .toEnd (ofSource { stream } settings))) _ = _
  rw [hnext]
  rfl

/-- **However short the data is**, there may be too little room for it.  Let a stream give the bytes
of a single character, and let the block be so large that a chunk for the rest of it does not fit.
Then draining fails, and hands out nothing. -/
theorem drain_of_room_lt {e : Encoding} {p : Policy} {b : Bytes} {c : CodePoint} {decoder : Decoder}
    (hnames : settings.labels.Names e p) (hne : b ≠ [])
    (hfeed : (Decoder.start e p).feed b false = .ok [c] decoder) (hreturn : c ≠ .carriageReturn)
    (hlength : b.length ≤ Decoded.chunkSize (0, 0) 1) (hfirst : Decoded.chunkSize (0, 0) 1 ≤ room)
    (hone : 1 < settings.blockSize) (hblock : settings.blockSize ≤ largestSize)
    (hshort : room < Decoded.chunkSize (b.length, 1) (settings.blockSize - 1)) :
    ∃ r r', open? room settings (.byteScript { items := [.units b] }) = .ok r ∧
      Producer.characters.drain .toEnd r = some ⟨[], some (.fault .outOfMemory), r'⟩ := by
  obtain ⟨d', hlook, hfault⟩ := Decoded.reads_of_room_lt hne hfeed hreturn hlength hfirst
    (Nat.sub_pos_of_lt hone) (Nat.le_trans (Nat.sub_le _ _) hblock) hshort
  have hlookDevice : InputStream.read 1 (Device.raw _) = .ok (.units [c]) (.raw d') :=
    congrArg (Device.embed .raw) hlook
  have hfaultDevice : InputStream.read (settings.blockSize - 1) (Device.raw d') =
      .error .outOfMemory (.raw d') := congrArg (Device.embed .raw) hfault
  obtain ⟨r', hdrain⟩ := drain_of_fault_behind_look hone hlookDevice hfaultDevice
  refine ⟨_, r', ?_, hdrain⟩
  rw [open?, Source.open?, Device.open?, Labels.decoded, hnames.decoder_eq]
  rfl

end Reader

end PlacedText
