import PlacedText.Proofs.Stream.Passing
import PlacedText.Stream.Decoded

/-!
# Reading chunk by chunk

A decoded stream answers a read out of the text that waits, and then out of chunks, as many as it
takes.  So it passes over texts if its chunks do: `ChunkLaw F short L` says this of the chunks of
the streams in `L`, and `Decoded.passes` draws the conclusion.

A chunk without bytes ends a text, and reading goes on behind it if it gave any characters at all.
This is why an end can stay hidden behind a short answer.
-/

namespace PlacedText.Decoded

variable {β : Type} [FiniteStream UInt8 β] {F : Fault → Prop} {short : Prop}
  {L : List Text → Decoded β → Prop} {ts ts' : List Text} {d d' : Decoded β} {missing : Nat}

/-- A chunk that leads from the texts `ts` to the texts `ts'`. -/
structure Chunk.PassesOver (short : Prop) (ts : List Text) (c : Chunk) (ts' : List Text) :
    Prop where
  passed : Passed ts c.text ts'
  ended : c.empty = true → c.text = [] → ts.headD [] = []
  /-- Only behind a chunk without bytes can reading stop early. -/
  full : c.empty = true → short

/-- The chunks of the streams in `L` pass over texts.  The text that waits has no part in it. -/
structure ChunkLaw (F : Fault → Prop) (short : Prop) (L : List Text → Decoded β → Prop) :
    Prop where
  opened : ∀ {ts : List Text} {d : Decoded β}, L ts d → d.closed = false
  of_waiting : ∀ {ts : List Text} {d : Decoded β}, L ts d → ∀ waiting, L ts { d with waiting }
  readChunk : ∀ {ts : List Text} {d : Decoded β}, L ts d → ∀ missing,
    (∃ e d', readChunk missing d = .error e d' ∧ F e) ∨
      ∃ c d' ts', Decoded.readChunk missing d = .ok c d' ∧ c.PassesOver short ts ts' ∧ L ts' d'

/-- The text that waits comes first, and then the texts of the chunks. -/
def Waits (L : List Text → Decoded β → Prop) (ts : List Text) (d : Decoded β) : Prop :=
  ∃ later, Passed ts d.waiting later ∧ L later d

/-- Some of the text that waits, or all of it, can be taken. -/
theorem Waits.take (hlaw : ChunkLaw F short L) (h : Waits L ts d) (n : Nat) :
    ∃ ts', Passed ts (d.waiting.take n) ts' ∧
      Waits L ts' { d with waiting := d.waiting.drop n } := by
  obtain ⟨later, hpassed, hL⟩ := h
  rw [← List.take_append_drop n d.waiting] at hpassed
  obtain ⟨ts', htaken, hrest⟩ := hpassed.split
  exact ⟨ts', htaken, later, hrest, hlaw.of_waiting hL _⟩

/-- What two answers together pass over, where the second one is asked for what is still missing. -/
theorem passesOver_append {n : Nat} {ts'' : List Text} {x y : Text} (hx : Passed ts x ts')
    (hlength : x.length ≤ n) (hy : (Answer.units y).PassesOver (n - x.length) short ts' ts'') :
    (Answer.units (x ++ y)).PassesOver n short ts ts'' := by
  have hyle : y.length ≤ n - x.length := hy.length_le
  have hshow : (Answer.units (x ++ y)).toList = x ++ y := rfl
  constructor
  · exact hx.trans hy.passed
  · rw [hshow, List.length_append]
    omega
  · intro hn hnil
    obtain ⟨hxnil, hynil⟩ := List.append_eq_nil_iff.1 hnil
    have hmissing : 0 < n - x.length := by
      rw [hxnil]
      exact hn
    exact hx.headD_eq_nil hxnil (hy.ended hmissing hynil)
  · intro hlt
    apply hy.full
    rw [hshow, List.length_append] at hlt
    show y.length < n - x.length
    omega

/-- A chunk fails only as the law allows. -/
theorem Waits.of_readChunk_error {e : Fault} (hlaw : ChunkLaw F short L) (h : Waits L ts d)
    (hread : readChunk missing d = .error e d') : F e := by
  obtain ⟨later, -, hL⟩ := h
  rcases hlaw.readChunk hL missing with ⟨e', d'', herror, hF⟩ | ⟨c, d'', ts', hok, -⟩
  · rw [hread] at herror
    cases herror
    exact hF
  · rw [hread] at hok
    cases hok

/-- If no text waits, a chunk passes over the texts. -/
theorem Waits.of_readChunk {c : Chunk} (hlaw : ChunkLaw F short L) (h : Waits L ts d)
    (hwaiting : d.waiting = []) (hread : readChunk missing d = .ok c d') :
    ∃ ts', c.PassesOver short ts ts' ∧ L ts' d' := by
  obtain ⟨later, hskip, hL⟩ := h
  rcases hlaw.readChunk hL missing with ⟨e, d'', herror, -⟩ | ⟨c', d'', ts', hok, hc, hL'⟩
  · rw [hread] at herror
    cases herror
  · rw [hread] at hok
    cases hok
    -- The step without characters is made together with the chunk.
    rw [hwaiting] at hskip
    exact ⟨ts', ⟨hskip.trans hc.passed,
      fun hempty hnil => hskip.headD_eq_nil rfl (hc.ended hempty hnil), hc.full⟩, hL'⟩

/-- **Filling.**  Chunks are read until there is enough or an end is met, and what was read passes
over the texts. -/
theorem fill_of_waits (hlaw : ChunkLaw F short L) (h : Waits L ts d)
    (hwaiting : 0 < missing → d.waiting = []) (parts : List Text) :
    (∃ e d', fill missing parts d = .error e d' ∧ F e) ∨
      ∃ a d' ts', fill missing parts d = .ok (parts.reverse.flatten ++ a) d' ∧
        (Answer.units a).PassesOver missing short ts ts' ∧ Waits L ts' d' := by
  fun_induction fill missing parts d generalizing ts with
  | case1 parts d =>
    right
    refine ⟨[], d, ts, ?_, ⟨.stay ts, Nat.le_refl 0, ?_, ?_⟩, h⟩
    · rw [List.append_nil]
    · exact fun hpos => absurd hpos (Nat.lt_irrefl 0)
    · exact fun hlt => absurd hlt (Nat.lt_irrefl 0)
  | case2 missing parts d hmissing e d' hread =>
    exact .inl ⟨e, d', rfl, h.of_readChunk_error hlaw hread⟩
  | case3 missing parts d hmissing c d' hread hover =>
    -- A chunk without bytes and without characters: this is the end of a text.
    right
    have hnone : d.waiting = [] := hwaiting (Nat.pos_of_ne_zero hmissing)
    obtain ⟨ts', hc, hL'⟩ := h.of_readChunk hlaw hnone hread
    have hskip : Passed ts [] ts' := hover.2 ▸ hc.passed
    have hend : ts.headD [] = [] := hc.ended hover.1 hover.2
    refine ⟨[], d', ts', ?_, ⟨hskip, Nat.zero_le _, fun _ _ => hend, fun _ => hc.full hover.1⟩,
      ts', ?_, hL'⟩
    · rw [List.append_nil]
    · rw [waiting_eq_of_readChunk hread, hnone]
      exact .stay ts'
  | case4 missing parts d hmissing c d' hread hmore ih =>
    have hnone : d.waiting = [] := hwaiting (Nat.pos_of_ne_zero hmissing)
    obtain ⟨ts', hc, hL'⟩ := h.of_readChunk hlaw hnone hread
    -- As much of the chunk as is missing is taken, and the rest waits.
    have hchunk : Waits L ts { d' with waiting := c.text } :=
      ⟨ts', hc.passed, hlaw.of_waiting hL' _⟩
    obtain ⟨ts₁, htaken, hwaits⟩ := hchunk.take hlaw missing
    have hlength : (c.text.take missing).length ≤ missing := List.length_take_le _ _
    have hless : missing - (c.text.take missing).length = missing - c.text.length := by
      rw [List.length_take]
      omega
    have hdropped : 0 < missing - c.text.length → c.text.drop missing = [] := by
      intro hpos
      exact List.drop_of_length_le (by omega)
    rcases ih hwaits hdropped with ⟨e, d'', herror, hF⟩ | ⟨a, d'', ts'', hfill, ha, hwaits'⟩
    · exact .inl ⟨e, d'', herror, hF⟩
    · right
      rw [← hless] at ha
      refine ⟨c.text.take missing ++ a, d'', ts'', ?_, passesOver_append htaken hlength ha,
        hwaits'⟩
      rw [hfill, List.reverse_cons, List.flatten_append, List.flatten_singleton, List.append_assoc]

/-- A decoded stream passes over texts if its chunks do. -/
theorem keptByPassing_waits (hlaw : ChunkLaw F short L) :
    KeptByPassing largestSize F short (Waits L) := by
  intro ts d h n
  show (∃ e d', read n d = .error e d' ∧ _) ∨ ∃ a d' ts', read n d = .ok a d' ∧ _
  unfold read
  by_cases hlarge : largestSize < n
  · left
    refine ⟨.oversized, d, if_pos hlarge, fun hle => ?_⟩
    omega
  · obtain ⟨later, hpassed, hL⟩ := h
    have hopen : ¬d.closed = true := by
      rw [hlaw.opened hL]
      exact Bool.false_ne_true
    rw [if_neg hlarge, if_neg hopen]
    have hwaits : Waits L ts d := ⟨later, hpassed, hL⟩
    obtain ⟨ts₁, htaken, hrest⟩ := hwaits.take hlaw n
    have hlength : (d.waiting.take n).length ≤ n := List.length_take_le _ _
    have hdropped : 0 < n - (d.waiting.take n).length → d.waiting.drop n = [] := by
      intro hpos
      rw [List.length_take] at hpos
      exact List.drop_of_length_le (by omega)
    rcases fill_of_waits hlaw hrest hdropped [d.waiting.take n] with
      ⟨e, d', herror, hF⟩ | ⟨a, d', ts', hfill, ha, hwaits'⟩
    · left
      simp only [herror]
      exact ⟨e, d', rfl, fun _ => hF⟩
    · right
      rw [List.reverse_singleton, List.flatten_singleton] at hfill
      simp only [hfill]
      exact ⟨.units (d.waiting.take n ++ a), d', ts', rfl, passesOver_append htaken hlength ha,
        hwaits'⟩

/-- A stream in `L` with no text waiting passes over its texts. -/
theorem passes (hlaw : ChunkLaw F short L) (hL : L ts d) (hwaiting : d.waiting = []) :
    Passes largestSize F short ts d := by
  refine ⟨Waits L, keptByPassing_waits hlaw, ts, ?_, hL⟩
  rw [hwaiting]
  exact .stay ts

end PlacedText.Decoded
