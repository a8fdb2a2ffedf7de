import PlacedText.Proofs.Opening
import PlacedText.Proofs.Reader.Room
import PlacedText.Proofs.Reader.ToEnd
import PlacedText.Proofs.Stream.Marked

/-!
# Draining readers of encoded text

Reading undoes encoding (`Reader.drain_of_writes`): in units of one, two or four bytes, in either
byte order, with a byte order mark and without one.  The mark is no part of the text, and a `U+FEFF`
that is one is handed out.  The one thing that can go wrong is that there is no room for a chunk of
the bytes (`Reader.drain_of_writes_out_of_memory`).
-/

namespace PlacedText.Reader

variable {settings : Settings} {o : Origin} {e : Encoding} {s : String} {b : Bytes} {room : Nat}

/-- **Reading undoes encoding.**  Let bytes come from memory, from a file or from a stream that
gives them in pieces of any size, with nothing after them, and let them be a text in the encoding
that the settings name, under the strict policy.  Then a reader can be opened, draining it does not
fail, and it hands out the characters of the text, each in its place.

Only if the bytes come through a buffer, and there is no room for a chunk of them, does draining
fail; then it has handed out the first characters of the text, each in its place. -/
theorem drain_of_writes (hwrites : e.Writes s.toList b) (ho : o.Gives b)
    (hnames : settings.labels.Names e .strict) (hblock : settings.blockSize ≤ largestSize) :
    ∃ r d, open? room settings o = .ok r ∧ Producer.characters.drain .toEnd r = some d ∧
      (d.failure = none ∧ (∀ i, d.items[i]? = (text s).charAt? i) ∨
        ∃ error, d.failure = some error ∧ o.RunsShort room settings.blockSize error d.reader ∧
          ∀ i c, d.items[i]? = some c → (text s).charAt? i = some c) := by
  obtain ⟨runs, hdelivers, rfl, htail⟩ := ho
  obtain ⟨device, hopen', hdevice⟩ := exists_device_of_names hnames hdelivers
  have hpasses : Passes largestSize (fun _ => False) True [text s] device :=
    hdevice fun hbytes => Decoded.passes_of_writes hwrites (hbytes.once htail)
  obtain ⟨d', k, hdrain', hfailure', hitems'⟩ := drain_toEnd_of_passes hpasses hblock
  rw [List.take_succ_cons, List.take_nil, List.flatten_singleton] at hitems'
  obtain ⟨r, d, hopen, hdrain, ⟨hfailure, hitems⟩ | ⟨error, hfailure, hshort, hfront⟩⟩ :=
    drain_of_roomy hopen' hdrain'
  · refine ⟨r, d, hopen, hdrain, .inl ⟨hfailure.trans hfailure', fun i => ?_⟩⟩
    rw [hitems, hitems', getElem?_place]
  · rw [hitems'] at hfront
    exact ⟨r, d, hopen, hdrain,
      .inr ⟨error, hfailure, hshort, fun i c => charAt?_of_prefix_place hfront⟩⟩

/-- A stream that cuts a mark, units of two bytes and a pair of surrogates, read with room for every
size.  The text behind the mark begins with `U+FEFF` itself. -/
theorem drain_of_writes_torn_units :
    let pieces : List Bytes :=
      [[0xFE], [0xFF, 0xFE], [0xFF, 0x00, 0x61, 0x00, 0x0D, 0x00], [0x0A, 0xD8, 0x3D],
        [0xDE, 0x00, 0x00], [0x62]]
    let o : Origin := .byteScript { items := pieces.map .units ++ [.units [], .notReady] }
    let settings : Settings :=
      { Settings.default with
        blockSize := 1, encoding := text "utf-16", blockSize_pos := by decide }
    Encoding.Writes "\uFEFFa\r\n😀b".toList (.marked .utf16) pieces.flatten ∧
      o.Gives pieces.flatten ∧ settings.labels.Names (.marked .utf16) .strict ∧
      settings.blockSize ≤ largestSize ∧
      ∃ r d, open? largestSize settings o = .ok r ∧ Producer.characters.drain .toEnd r = some d ∧
        d.failure = none ∧ ∀ i, d.items[i]? = (text "\uFEFFa\r\n😀b").charAt? i := by
  intro pieces o settings
  have hwrites : Encoding.Writes "\uFEFFa\r\n😀b".toList (.marked .utf16) pieces.flatten :=
    .marked .utf16 .big
  have hgives : o.Gives pieces.flatten := Origin.gives_pieces (by decide) (by simp)
  have hname : ("utf-16", .marked .utf16) ∈ Labels.encodings := by decide
  have hnames : settings.labels.Names (.marked .utf16) .strict :=
    Labels.names_of_mem hname (by decide)
  have hblock : settings.blockSize ≤ largestSize := by decide
  obtain ⟨r, d, hopen, hdrain, ⟨hfailure, hitems⟩ | ⟨e, -, hshort, -⟩⟩ :=
    drain_of_writes hwrites hgives hnames hblock
  · exact ⟨hwrites, hgives, hnames, hblock, r, d, hopen, hdrain, hfailure, hitems⟩
  · exact absurd hshort Origin.not_runsShort_largestSize

/-- Two bytes from a stream, one character, in blocks for which there is no room: the reader fails,
and hands out nothing. -/
theorem drain_of_writes_out_of_memory :
    let o : Origin := .byteScript { items := [.units [0x61, 0x00]] }
    let settings : Settings :=
      { Settings.default with
        blockSize := 2 ^ 61, encoding := text "utf-16-le", blockSize_pos := by decide }
    Encoding.Writes "a".toList (.plain (.utf16 .little)) [0x61, 0x00] ∧ o.Gives [0x61, 0x00] ∧
      settings.labels.Names (.plain (.utf16 .little)) .strict ∧
      settings.blockSize ≤ largestSize ∧
      ∃ r d, open? (2 ^ 47) settings o = .ok r ∧ Producer.characters.drain .toEnd r = some d ∧
        d.failure = some (.fault .outOfMemory) ∧ d.items = [] := by
  intro o settings
  have hwrites : Encoding.Writes "a".toList (.plain (.utf16 .little)) [0x61, 0x00] :=
    .plain .utf16 .little
  have hgives : o.Gives [0x61, 0x00] := Origin.gives_single (List.cons_ne_nil _ _)
  have hname : ("utf-16-le", .plain (.utf16 .little)) ∈ Labels.encodings := by decide
  have hnames : settings.labels.Names (.plain (.utf16 .little)) .strict :=
    Labels.names_of_mem hname (by decide)
  have hblock : settings.blockSize ≤ largestSize := by decide
  have hfeed : (Decoder.start (.plain (.utf16 .little)) .strict).feed [0x61, 0x00] false =
      .ok [.ofChar 'a'] (Decoder.start (.plain (.utf16 .little)) .strict) := by cbv
  have hfirst : Decoded.chunkSize (0, 0) 1 ≤ 2 ^ 47 := by decide
  have hshort : 2 ^ 47 < Decoded.chunkSize (2, 1) (2 ^ 61 - 1) := by decide +kernel
  obtain ⟨r, r', hopen, hdrain⟩ := drain_of_room_lt hnames (List.cons_ne_nil _ _) hfeed
    (by decide) (by decide) hfirst (by decide) hblock hshort
  exact ⟨hwrites, hgives, hnames, hblock, r, _, hopen, hdrain, rfl, rfl⟩

end PlacedText.Reader
