import PlacedText.Proofs.Encoding.Lossy
import PlacedText.Proofs.Opening
import PlacedText.Proofs.Reader.Room
import PlacedText.Proofs.Reader.ToEnd

/-!
# Draining readers of bytes

Under a policy that never gives up, draining a reader of UTF-8 fails only if a chunk of bytes does
not fit into the room that the system has for it, whatever the bytes, the pieces they come in and
the size of the blocks.

A stream that has more to give after an empty answer is drained run by run, and the draining ends
with one of the runs (`Reader.drain_runs_of_substitute`).  It need not be the first: an empty answer
in the middle of a read is hidden behind the characters that the read has got.  If nothing comes
after the first run, all of it is handed out, and nothing else (`Reader.drain_of_substitute`).  How
much room is needed depends on the size of the blocks, so there is a size for which there is not
enough, however short the data is (`Reader.drain_out_of_memory`).
-/

namespace PlacedText.Reader

variable {settings : Settings} {o : Origin} {p : Policy} {write : Bytes → Text} {room : Nat}

/-- Runs of bytes and the texts that they read as under a policy that never gives up. -/
theorem exists_forall₂_reads (hp : p.substitute? = some write) (runs : List Bytes) :
    ∃ ts, List.Forall₂ (Reads .utf8 p) runs ts := by
  induction runs with
  | nil => exact ⟨[], .nil⟩
  | cons run runs ih =>
    obtain ⟨ts, hts⟩ := ih
    obtain ⟨t, ht, -⟩ := Utf8.exists_reads hp run
    exact ⟨t :: ts, .cons ht hts⟩

/-- A policy that never gives up does not read surrogates. -/
theorem ne_surrogatePass_of_substitute (hp : p.substitute? = some write) : p ≠ .surrogatePass := by
  rintro rfl
  cases hp

/-- Draining a reader of runs that read as texts, with room for every size. -/
theorem drain_of_reads {runs : List Bytes} {ts : List Text} {s : Scheme} (hs : s.Stable)
    (hp : p ≠ .surrogatePass) (hname : settings.labels.Name s p) (ho : o.Delivers runs)
    (hreads : List.Forall₂ (Reads s p) runs ts) (hblock : settings.blockSize ≤ largestSize) :
    ∃ r d k, open? largestSize settings o = .ok r ∧ Producer.characters.drain .toEnd r = some d ∧
      d.failure = none ∧ d.items = (place .start (ts.take (k + 1)).flatten).1 := by
  obtain ⟨device, hopen, hdevice⟩ := exists_device_of_delivers hname ho
  have hpasses : Passes largestSize (fun _ => False) True ts device :=
    hdevice fun hdelivers => Decoded.passes_of_reads hs hp hdelivers hreads
  obtain ⟨d, k, hdrain, hfailure, hitems⟩ := drain_toEnd_of_passes hpasses hblock
  exact ⟨_, d, k, hopen, hdrain, hfailure, hitems⟩

/-- **Run by run.**  Let a stream give bytes in runs, each ended by an answer without bytes.  Then
draining a reader of it hands out the texts of the first runs, as many of them as it takes until an
answer without bytes is met between two reads.  It does not fail, unless there is no room for a
chunk; then it has handed out the beginning of these texts. -/
theorem drain_runs_of_substitute {s : Script UInt8} (hsound : Script.Sound s.items)
    (hname : settings.labels.Name .utf8 p) (hp : p.substitute? = some write)
    (hblock : settings.blockSize ≤ largestSize) :
    ∃ ts r d k,
      List.Forall₂ (fun run t => DecodeMode.decode ⟨.utf8, p, true⟩ 0 run = .ok ⟨t, []⟩)
        (Script.runs s.items) ts ∧
      open? room settings (.byteScript s) = .ok r ∧ Producer.characters.drain .toEnd r = some d ∧
      (d.failure = none ∧ (∀ i, d.items[i]? = Text.charAt? (ts.take (k + 1)).flatten i) ∨
        ∃ e, d.failure = some e ∧
          (Origin.byteScript s).RunsShort room settings.blockSize e d.reader ∧
          ∀ i c, d.items[i]? = some c → Text.charAt? (ts.take (k + 1)).flatten i = some c) := by
  obtain ⟨ts, hreads⟩ := exists_forall₂_reads hp (Script.runs s.items)
  obtain ⟨r', d', k, hopen', hdrain', hfailure', hitems'⟩ := drain_of_reads Utf8.stable
    (ne_surrogatePass_of_substitute hp) hname (.script hsound) hreads hblock
  obtain ⟨r, d, hopen, hdrain, ⟨hfailure, hitems⟩ | ⟨e, hfailure, hshort, hfront⟩⟩ :=
    drain_of_roomy hopen' hdrain'
  · refine ⟨ts, r, d, k, hreads.imp fun run t hrun => hrun.decodeOnto_eq 0 [], hopen, hdrain,
      .inl ⟨hfailure.trans hfailure', fun i => ?_⟩⟩
    rw [hitems, hitems', getElem?_place]
  · rw [hitems'] at hfront
    exact ⟨ts, r, d, k, hreads.imp fun run t hrun => hrun.decodeOnto_eq 0 [], hopen, hdrain,
      .inr ⟨e, hfailure, hshort, fun i c => charAt?_of_prefix_place hfront⟩⟩

/-- A stream that says between two pieces that nothing is ready, read in blocks that are larger than
both of them, with room for every size. -/
theorem drain_runs_hidden_end :
    let s : Script UInt8 := { items := [.units [0x61, 0x62], .notReady, .units [0x63]] }
    let settings : Settings := { Settings.default with policy := text "replace" }
    Script.Sound s.items ∧ settings.labels.Name .utf8 .replace ∧
      Policy.replace.substitute?.isSome ∧ settings.blockSize ≤ largestSize ∧
      ∃ ts r d k,
        List.Forall₂ (fun run t => DecodeMode.decode ⟨.utf8, .replace, true⟩ 0 run = .ok ⟨t, []⟩)
          (Script.runs s.items) ts ∧
        open? largestSize settings (.byteScript s) = .ok r ∧
        Producer.characters.drain .toEnd r = some d ∧ d.failure = none ∧
        ∀ i, d.items[i]? = Text.charAt? (ts.take (k + 1)).flatten i := by
  intro s settings
  have hsound : Script.Sound s.items := by
    intro message hmem
    simp [s] at hmem
  have hname : settings.labels.Name .utf8 .replace := Labels.name_utf8 (by decide)
  have hblock : settings.blockSize ≤ largestSize := by decide
  obtain ⟨ts, r, d, k, hruns, hopen, hdrain, ⟨hfailure, hitems⟩ | ⟨e, -, hshort, -⟩⟩ :=
    drain_runs_of_substitute hsound hname rfl hblock
  · exact ⟨hsound, hname, rfl, hblock, ts, r, d, k, hruns, hopen, hdrain, hfailure, hitems⟩
  · exact absurd hshort Origin.not_runsShort_largestSize

/-- **Every byte string is read to the end.**  Let bytes come from memory, from a file or from a
stream that gives them in pieces of any size, with nothing after them, and let the policy be one
that never gives up.  Then a reader can be opened, draining it does not fail, and what it hands out
is what decoding all bytes at once comes to: characters where characters stand, and the text of the
policy once for each maximal subpart that is no character, one at the end included.  If the policy
remembers bytes as surrogates, the bytes can be had back from the text.

Only if the bytes come through a buffer, and there is no room for a chunk of them, does draining
fail; then it has handed out the beginning of that text. -/
theorem drain_of_substitute {b : Bytes} (ho : o.Gives b) (hname : settings.labels.Name .utf8 p)
    (hp : p.substitute? = some write) (hblock : settings.blockSize ≤ largestSize) :
    ∃ t r d, DecodeMode.decode ⟨.utf8, p, true⟩ 0 b = .ok ⟨t, []⟩ ∧ Utf8.ReadsReplacing write b t ∧
      open? room settings o = .ok r ∧ Producer.characters.drain .toEnd r = some d ∧
      (d.failure = none ∧ (∀ i, d.items[i]? = t.charAt? i) ∧
          (p = .surrogateEscape → Utf8.encodeEscaped? (textOf d.items) = some b) ∨
        ∃ e, d.failure = some e ∧ o.RunsShort room settings.blockSize e d.reader ∧
          ∀ i c, d.items[i]? = some c → t.charAt? i = some c) := by
  obtain ⟨runs, hdelivers, rfl, htail⟩ := ho
  obtain ⟨t, hreads, hreplacing⟩ := Utf8.exists_reads hp (runs.headD [])
  obtain ⟨ts, hts, hfirst, hlater⟩ := Decoded.exists_texts hreads htail
  obtain ⟨r', d', k, hopen', hdrain', hfailure', hitems'⟩ := drain_of_reads Utf8.stable
    (ne_surrogatePass_of_substitute hp) hname hdelivers hts hblock
  -- Whichever run the draining ends with, the texts up to it are the first one.
  have hall : (ts.take (k + 1)).flatten = ts.headD [] := by
    cases ts with
    | nil => rfl
    | cons first ts =>
      have hrest : (ts.take k).flatten = [] :=
        List.flatten_eq_nil_iff.2 fun later hmem => hlater later (List.mem_of_mem_take hmem)
      rw [List.take_succ_cons, List.flatten_cons, hrest, List.append_nil]
      rfl
  rw [hall, hfirst] at hitems'
  obtain ⟨r, d, hopen, hdrain, ⟨hfailure, hitems⟩ | ⟨e, hfailure, hshort, hfront⟩⟩ :=
    drain_of_roomy hopen' hdrain'
  · rw [hitems'] at hitems
    refine ⟨t, r, d, hreads.decodeOnto_eq 0 [], hreplacing, hopen, hdrain,
      .inl ⟨hfailure.trans hfailure', ?_, ?_⟩⟩
    · intro i
      rw [hitems, getElem?_place]
    · rintro rfl
      obtain rfl : (·.map Recovery.surrogateOf) = write := Option.some.inj hp
      rw [hitems, textOf_place]
      exact Utf8.encodeEscaped?_of_reads hreplacing
  · rw [hitems'] at hfront
    exact ⟨t, r, d, hreads.decodeOnto_eq 0 [], hreplacing, hopen, hdrain,
      .inr ⟨e, hfailure, hshort, fun i c => charAt?_of_prefix_place hfront⟩⟩

/-- A stream that cuts a character, a maximal subpart and an encoded surrogate, and stops inside a
character, read one character at a time under the policy that remembers bytes, with room for every
size. -/
theorem drain_torn_subparts :
    let pieces : List Bytes :=
      [[0x61, 0xF0], [0x9F, 0x98], [0x80, 0xE2, 0x82], [0x0D], [0x0A, 0xED], [0xA0, 0x80, 0xC3]]
    let o : Origin := .byteScript { items := pieces.map .units ++ [.units [], .units []] }
    let settings : Settings :=
      { Settings.default with
        blockSize := 1, policy := text "surrogateescape", blockSize_pos := by decide }
    o.Gives pieces.flatten ∧ settings.labels.Name .utf8 .surrogateEscape ∧
      settings.blockSize ≤ largestSize ∧
      ∃ write t r d, Policy.surrogateEscape.substitute? = some write ∧
        DecodeMode.decode ⟨.utf8, .surrogateEscape, true⟩ 0 pieces.flatten = .ok ⟨t, []⟩ ∧
        Utf8.ReadsReplacing write pieces.flatten t ∧ open? largestSize settings o = .ok r ∧
        Producer.characters.drain .toEnd r = some d ∧ d.failure = none ∧
        (∀ i, d.items[i]? = t.charAt? i) ∧
        Utf8.encodeEscaped? (textOf d.items) = some pieces.flatten := by
  intro pieces o settings
  have hgives : o.Gives pieces.flatten :=
    Origin.gives_pieces (by decide) (by simp)
  have hname : settings.labels.Name .utf8 .surrogateEscape := Labels.name_utf8 (by decide)
  have hblock : settings.blockSize ≤ largestSize := by decide
  obtain ⟨t, r, d, hdecode, hreplacing, hopen, hdrain,
    ⟨hfailure, hitems, hback⟩ | ⟨e, -, hshort, -⟩⟩ := drain_of_substitute hgives hname rfl hblock
  · exact ⟨hgives, hname, hblock, _, t, r, d, rfl, hdecode, hreplacing, hopen, hdrain, hfailure,
      hitems, hback rfl⟩
  · exact absurd hshort Origin.not_runsShort_largestSize

/-- One byte from a stream, in blocks for which there is no room: the reader fails, and hands out
nothing. -/
theorem drain_out_of_memory :
    let o : Origin := .byteScript { items := [.units [0x61]] }
    let settings : Settings :=
      { Settings.default with
        blockSize := 2 ^ 62, policy := text "replace", blockSize_pos := by decide }
    o.Gives [0x61] ∧ settings.labels.Name .utf8 .replace ∧ settings.blockSize ≤ largestSize ∧
      ∃ r d, open? (2 ^ 47) settings o = .ok r ∧ Producer.characters.drain .toEnd r = some d ∧
        d.failure = some (.fault .outOfMemory) ∧ d.items = [] := by
  intro o settings
  have hgives : o.Gives [0x61] := Origin.gives_single (List.cons_ne_nil _ _)
  have hname : settings.labels.Name .utf8 .replace := Labels.name_utf8 (by decide)
  have hblock : settings.blockSize ≤ largestSize := by decide
  have hfeed : (Decoder.start (.plain .utf8) .replace).feed [0x61] false =
      .ok [.ofChar 'a'] (Decoder.start (.plain .utf8) .replace) := by cbv
  have hfirst : Decoded.chunkSize (0, 0) 1 ≤ 2 ^ 47 := by decide
  have hshort : 2 ^ 47 < Decoded.chunkSize (1, 1) (2 ^ 62 - 1) := by decide +kernel
  obtain ⟨r, r', hopen, hdrain⟩ := drain_of_room_lt hname.names (List.cons_ne_nil _ _) hfeed
    (by decide) (by decide) hfirst (by decide) hblock hshort
  exact ⟨hgives, hname, hblock, r, _, hopen, hdrain, rfl, rfl⟩

end PlacedText.Reader
