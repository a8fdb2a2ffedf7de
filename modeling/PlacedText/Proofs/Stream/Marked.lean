import PlacedText.Proofs.Encoding.Marked
import PlacedText.Proofs.Stream.Decoding

/-!
# Decoding behind a byte order mark

A decoded stream whose first run begins with a byte order mark passes over the texts of its runs,
without the mark (`Decoded.passes_of_marked`).  The mark need not come in one chunk: what has come
of it waits (`Decoded.AtMark`), and with the chunk that completes it the stream is one of those that
are read in the scheme of the mark (`Decoded.Reading`).
-/

namespace PlacedText.Decoded

variable {β : Type} [FiniteStream UInt8 β] {d : Decoded β} {e : MarkedEncoding} {order : ByteOrder}
  {p : Policy}

/-- A stream whose first run is a mark and what reads as the first text.  Some of the bytes of the
mark may wait in the decoder, but not all. -/
structure AtMark (e : MarkedEncoding) (order : ByteOrder) (p : Policy) (ts : List Text)
    (d : Decoded β) : Prop where
  opened : d.closed = false
  phase : d.decoder.phase = .atMark e
  policy : d.decoder.policy = p
  held : d.heldReturn = false
  short : d.decoder.pending.length < (e.mark order).length
  runs : ∃ runs data t, Delivers runs d.device ∧
    d.decoder.pending ++ runs.headD [] = e.mark order ++ data ∧ Reads (e.scheme order) p data t ∧
    ts.headD [] = t ∧ List.Forall₂ (Reads (e.scheme order) p) runs.tail ts.tail

/-- A stream at a mark, or behind it. -/
def Marked (e : MarkedEncoding) (order : ByteOrder) (p : Policy) (ts : List Text)
    (d : Decoded β) : Prop :=
  AtMark e order p ts d ∨ Reading (e.scheme order) p ts d

/-- A chunk of a stream at a mark gives some of the mark, or the rest of it and something behind. -/
theorem AtMark.readChunk {ts : List Text} (h : AtMark e order p ts d) (hp : p ≠ .surrogatePass)
    (missing : Nat) :
    ∃ c d' ts', Decoded.readChunk missing d = .ok c d' ∧ c.PassesOver True ts ts' ∧
      Marked e order p ts' d' := by
  obtain ⟨runs, data, t, hdelivers, hrun, hreads, htext, hlater⟩ := h.runs
  obtain ⟨answer, device, hread, ⟨hne, rest, hhead, hdevice⟩ | ⟨-, hhead, -⟩⟩ :=
    read_of_delivers hdelivers missing
  · rw [hhead, ← List.append_assoc] at hrun
    have hfront : d.decoder.pending ++ answer.toList <+: e.mark order ++ data := ⟨rest, hrun⟩
    have hmark : e.mark order <+: e.mark order ++ data := List.prefix_append _ _
    by_cases hshort : (d.decoder.pending ++ answer.toList).length < (e.mark order).length
    · -- Some of the mark is still to come, and nothing is shown.
      have hprefix : d.decoder.pending ++ answer.toList <+: e.mark order :=
        List.prefix_of_prefix_length_le hfront hmark (Nat.le_of_lt hshort)
      have hempty : answer.toList.isEmpty = false := List.isEmpty_eq_false_iff.2 hne
      have hfeed : d.decoder.feed answer.toList answer.toList.isEmpty =
          .ok [] ⟨.atMark e, p, d.decoder.pending ++ answer.toList⟩ := by
        rw [hempty]
        exact Decoder.feed_of_short h.phase h.policy hprefix hshort
      obtain ⟨lastChunk, hchunk⟩ := readChunk_of_feed hread hfeed
      rw [hempty, h.held] at hchunk
      refine ⟨_, _, ts, hchunk, ⟨.stay ts, ?_, ?_⟩, .inl ⟨h.opened, rfl, rfl, rfl, hshort, ?_⟩⟩
      · intro hover
        cases hover
      · intro hover
        cases hover
      · exact ⟨_, data, t, hdevice, hrun, hreads, htext, hlater⟩
    · -- The mark is there, and what is behind it is the front of the first text.
      obtain ⟨front, hwhole⟩ : e.mark order <+: d.decoder.pending ++ answer.toList :=
        List.prefix_of_prefix_length_le hmark hfront (Nat.le_of_not_lt hshort)
      rw [← hwhole, List.append_assoc, List.append_cancel_left_eq] at hrun
      rw [← hrun] at hreads
      obtain ⟨u, left, t', rfl, hreads', hdecode⟩ := hreads.front (e.stable order) hp
      have hfeed : d.decoder.feed answer.toList false =
          .ok u ⟨.settled (e.scheme order), p, left⟩ :=
        Decoder.feed_of_mark h.phase h.policy hwhole.symm fun place => hdecode place []
      have htext' : ts.headD [] = heldText d.heldReturn ++ (u ++ t') := by
        rw [h.held]
        exact htext
      obtain ⟨c, d', ts', hchunk, hpasses, hreading⟩ :=
        exists_reading_of_feed h.opened hread hne hfeed htext' hreads' hdevice hlater
      exact ⟨c, d', ts', hchunk, hpasses, .inr hreading⟩
  · -- The run cannot end before the mark has come.
    exfalso
    have hlength := congrArg List.length hrun
    rw [hhead, List.append_nil, List.length_append] at hlength
    have hshort := h.short
    omega

/-- The chunks of such a stream pass over the texts, without faults. -/
theorem chunkLaw_marked (hp : p ≠ .surrogatePass) :
    ChunkLaw (fun _ => False) True (Marked (β := β) e order p) where
  opened h := h.elim AtMark.opened Reading.opened
  of_waiting h waiting := by
    refine h.imp (fun h => ?_) fun h => ?_
    · exact ⟨h.opened, h.phase, h.policy, h.held, h.short, h.runs⟩
    · exact ⟨h.opened, h.phase, h.policy, h.runs⟩
  readChunk := by
    intro ts d h missing
    rcases h with h | h
    · exact .inr (h.readChunk hp missing)
    · -- Behind the mark the law of its scheme holds.
      rcases (chunkLaw_reading (e.stable order) hp).readChunk h missing with
        hfault | ⟨c, d', ts', hchunk, hpasses, hreading⟩
      · exact .inl hfault
      · exact .inr ⟨c, d', ts', hchunk, hpasses, .inr hreading⟩

/-- **Runs behind a mark.**  If the first run is a mark and what reads as the first text, and each
later run reads as its text, a decoded stream passes over the texts without faults. -/
theorem passes_of_marked (hp : p ≠ .surrogatePass) {device : β} {runs : List Bytes} {data : Bytes}
    {ts : List Text} (hdelivers : Delivers runs device)
    (hfirst : runs.headD [] = e.mark order ++ data)
    (hreads : Reads (e.scheme order) p data (ts.headD []))
    (hlater : List.Forall₂ (Reads (e.scheme order) p) runs.tail ts.tail) :
    Passes largestSize (fun _ => False) True ts
      ({ device, decoder := Decoder.start (.marked e) p } : Decoded β) := by
  have hlong : 0 < (e.mark order).length := e.mark_length_pos order
  refine passes (chunkLaw_marked hp) (.inl ⟨rfl, rfl, rfl, rfl, hlong, ?_⟩) rfl
  exact ⟨runs, data, _, hdelivers, hfirst, hreads, rfl, hlater⟩

/-- **What is encoded is decoded.**  If the bytes of the only run are characters in an encoding, a
strict decoded stream passes over these characters. -/
theorem passes_of_writes {e : Encoding} {cs : List Char} {b : Bytes} (h : e.Writes cs b)
    {device : β} (hdelivers : Delivers [b] device) :
    Passes largestSize (fun _ => False) True [cs.map .ofChar]
      ({ device, decoder := Decoder.start e .strict } : Decoded β) := by
  have hp : Policy.strict ≠ .surrogatePass := by decide
  cases h with
  | plain e order =>
    have hreads := (e.finds order).reads .strict cs
    exact passes_of_reads (e.stable order) hp hdelivers (.cons hreads .nil)
  | marked e order =>
    have hreads := (e.finds order).reads .strict cs
    exact passes_of_marked hp hdelivers rfl hreads .nil

end PlacedText.Decoded
