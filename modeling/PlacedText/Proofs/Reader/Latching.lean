import PlacedText.Proofs.Reader.Trail
import PlacedText.Proofs.Source.Keeping
import PlacedText.Proofs.Stream.Recorded

/-!
# The end of the data

A stream may give an empty answer and go on afterwards, it may fail and go on, and it may be closed.
A reader takes the first empty answer for the end of the data and asks no more: among the reads on
record, only the last one can have come to an empty answer (`EndsOnce`).  The invariant is that the
source is exhausted exactly if one did (`Latched`), and it is kept by every move.

A reader that was told that the data has ended has nothing queued, and its source looks at nothing
and is exhausted (`Reader.Over`).  No move leads out of this.
-/

namespace PlacedText

open Running

variable {σ : Type} [InputStream CodePoint σ]

/-! ### The reads on record -/

/-- None of the reads came to an empty answer but perhaps the last one; the outcomes are listed
latest first. -/
def EndsOnce (reads : List ReadOutcome) : Prop := ∀ x ∈ reads.tail, ¬x.IsEmpty

/-- No read but the last one came to an empty answer, and that one only if the stream is taken to
have ended. -/
structure Latched (stream : Recorded σ) (ended : Bool) : Prop where
  endsOnce : EndsOnce stream.reads
  going : ended = false → ∀ x ∈ stream.reads, ¬x.IsEmpty

omit [InputStream CodePoint σ] in
/-- A stream that was never read has not ended. -/
theorem latched_fresh (stream : σ) : Latched ({ stream } : Recorded σ) false where
  endsOnce _ hx := absurd hx List.not_mem_nil
  going _ _ hx := absurd hx List.not_mem_nil

/-- As long as only streams are asked that have not ended, the record ends once. -/
theorem asking_latched : Asking (Latched (σ := σ)) where
  answer {n stream stream' a} h hread := by
    have hreads := Recorded.reads_of_read_eq_ok hread
    refine ⟨?_, fun hgoing x hx => ?_⟩
    · rw [EndsOnce, hreads]
      exact h.going rfl
    · rw [hreads] at hx
      rcases List.mem_cons.1 hx with rfl | hx
      · exact List.isEmpty_eq_false_iff.1 hgoing
      · exact h.going rfl x hx
  fault {n stream stream' e} h hread := by
    have hreads := Recorded.reads_of_read_eq_error hread
    refine ⟨?_, fun _ x hx => ?_⟩
    · rw [EndsOnce, hreads]
      exact h.going rfl
    · rw [hreads] at hx
      rcases List.mem_cons.1 hx with rfl | hx
      · exact id
      · exact h.going rfl x hx
  close {stream ended} h := by
    have hreads := Recorded.reads_close stream
    refine ⟨?_, fun hgoing => ?_⟩
    · rw [EndsOnce, hreads]
      exact h.endsOnce
    · rw [hreads]
      exact h.going hgoing

/-! ### What moves of a reader keep of its stream -/

namespace Reader

section Keeping

variable {P : Source σ → Prop}

omit [InputStream CodePoint σ] in
theorem onSource_keeps {α : Type} {x : SourceM σ α} (hx : Keeps P x) :
    Keeps (fun r : Reader σ => P r.source) (onSource x) := by
  intro r h
  have hsource : P (endState (x r.source)) := hx h
  rw [endState_onSource]
  exact hsource

theorem atEnd_keeps (hend : Keeps P Source.atEnd) :
    Keeps (fun r : Reader σ => P r.source) atEnd := by
  refine Keeps.get.bind fun r => ?_
  split
  · exact onSource_keeps hend
  · exact .pure false

theorem refill_keeps (hblock : ∀ n, Keeps P (Source.readBlock n))
    (hnote : ∀ s count place, P s → P { s with journal := s.journal.note (.refill count place) }) :
    Keeps (fun r : Reader σ => P r.source) refill := by
  refine Keeps.get.bind fun r => ?_
  refine (onSource_keeps (hblock _)).bind fun block => ?_
  refine Keeps.bind (onSource_keeps (.of_modify fun s h => hnote s _ _ h)) fun _ => ?_
  exact .of_modify fun _ h => h

/-- What the actions of a source keep is kept by taking in. -/
theorem precache_keeps (hend : Keeps P Source.atEnd) (hblock : ∀ n, Keeps P (Source.readBlock n))
    (hnote : ∀ s count place, P s → P { s with journal := s.journal.note (.refill count place) }) :
    Keeps (fun r : Reader σ => P r.source) precache := by
  refine Keeps.get.bind fun r => ?_
  split
  · refine (onSource_keeps hend).bind fun ended => ?_
    split
    · exact Keeps.get.bind fun r => .throw (ReadError.endOfData r.next)
    · exact refill_keeps hblock hnote
  · exact .pure ()

variable {I : σ → Bool → Prop}

/-- A property that asking and closing keep is kept by every move. -/
theorem Move.keeps_has (hI : Asking I) {r r' : Reader σ} {c : Option PlacedChar} (h : Move r c r')
    (hr : r.source.Has I) : r'.source.Has I := by
  cases h with
  | ask => exact atEnd_keeps (Source.atEnd_keeps hI.toAnswering) hr
  | fill =>
    exact precache_keeps (Source.atEnd_keeps hI.toAnswering)
      (Source.readBlock_keeps hI.toAnswering) (fun _ _ _ h => h) hr
  | take hqueued => exact hr
  | close => exact Source.close_keeps hI hr
  | note j => exact hr

end Keeping

/-- **The empty answer is the last read.**  Wherever a reader has got to, no read on record but the
last one came to an empty answer. -/
theorem Trail.endsOnce {stream : σ} {journal : Journal} {settings : Settings}
    {cs : List PlacedChar} {r : Reader (Recorded σ)}
    (h : Trail (ofSource { stream := { stream }, journal } settings) cs r) :
    EndsOnce r.source.stream.reads := by
  have hlatched : r.source.Has Latched :=
    h.keeps (fun _ _ _ => Move.keeps_has asking_latched) (latched_fresh stream)
  exact hlatched.endsOnce

end Reader

/-! ### A source that is spent -/

namespace Source

variable {s s' : Source σ}

/-- A source that looks at nothing and asks its stream no more. -/
structure Spent (s : Source σ) : Prop where
  lookahead : s.lookahead = []
  exhausted : s.exhausted = true

/-- What looking shows is the lookahead afterwards. -/
theorem lookahead_of_peek {c : Text} (h : peek s = .ok c s') : s'.lookahead = c := by
  by_cases hahead : s.lookahead = []
  · cases hpull : pull 1 s with
    | ok c' s₁ =>
      rw [peek_of_pull hahead hpull] at h
      cases h
      rfl
    | error e s₁ =>
      rw [peek_of_pull_fault hahead hpull] at h
      cases h
  · rw [peek_of_lookahead hahead] at h
    cases h
    rfl

/-- A source at the end of its data is spent. -/
theorem spent_of_atEnd (h : atEnd s = .ok true s') : s'.Spent := by
  refine ⟨?_, exhausted_of_atEnd h⟩
  obtain ⟨c, s₁, hpeek, hc⟩ := bind_eq_ok_iff.1 h
  obtain rfl : s₁ = s' := (EStateM.Result.ok.inj hc).2
  rw [lookahead_of_peek hpeek]
  exact List.isEmpty_iff.1 (EStateM.Result.ok.inj hc).1

namespace Spent

/-- A spent source shows nothing, and nothing changes. -/
theorem peek (h : s.Spent) : Source.peek s = .ok [] s := by
  have hsame : { s with lookahead := [] } = s := by rw [← h.lookahead]
  rw [peek_of_pull h.lookahead (pull_of_exhausted h.exhausted 1), hsame]

theorem atEnd (h : s.Spent) : Source.atEnd s = .ok true s := atEnd_of_peek h.peek

/-- Reading any number of characters gives none. -/
theorem read (h : s.Spent) (n : Int) : Source.read n s = .ok [] s := by
  rw [Source.read]
  rcases Nat.eq_zero_or_pos n.toNat with hzero | hpos
  · rw [hzero, readUpTo, if_pos rfl]
    rfl
  · rw [readUpTo_of_lookahead_nil hpos h.lookahead,
      gather_of_pull_nil hpos (pull_of_exhausted h.exhausted _)]
    rfl

theorem close (h : s.Spent) : (endState (Source.close s)).Spent :=
  ⟨s.lookahead_close.trans h.lookahead, s.exhausted_close.trans h.exhausted⟩

end Spent

end Source

/-! ### A reader that is over -/

namespace Reader

variable {r r' : Reader σ} {place : Position}

/-- A reader that has nothing left and would place a further character at `place`. -/
structure Over (place : Position) (r : Reader σ) : Prop where
  source : r.source.Spent
  queue : r.queue = []
  next : r.next = place

/-- What a caller sees of a reader at the end of its data: it says so, and whoever asks for a
character is told where a further one would stand. -/
structure EndsAt (place : Position) (r : Reader σ) : Prop where
  atEnd : atEnd r = .ok true r
  precache : precache r = .error (.endOfData place) r
  peek : peek r = .error (.endOfData place) r
  read : read r = .error (.endOfData place) r

/-- A reader that was told that the data has ended is over. -/
theorem over_of_atEnd (h : Reader.atEnd r = .ok true r') : r'.Over r.next := by
  obtain ⟨hqueue, hend⟩ := of_atEnd h
  obtain ⟨s, hs⟩ := exists_endState_atEnd r
  rw [h] at hs
  obtain rfl : r' = { r with source := s } := hs
  exact ⟨Source.spent_of_atEnd hend, hqueue, rfl⟩

namespace Over

theorem endsAt (h : r.Over place) : r.EndsAt place := by
  have hsource : Source.atEnd r.source = .ok true r.source := h.source.atEnd
  have hprecache : Reader.precache r = .error (.endOfData place) r := by
    rw [← h.next]
    exact precache_of_atEnd h.queue hsource
  exact ⟨atEnd_of_source h.queue hsource, hprecache, peek_of_precache_error hprecache,
    read_of_precache_error hprecache⟩

/-- **No move leads out of the end.** -/
theorem move {c : Option PlacedChar} (hmove : Move r c r') (h : r.Over place) :
    r'.Over place := by
  cases hmove with
  | ask =>
    rw [h.endsAt.atEnd]
    exact h
  | fill =>
    rw [h.endsAt.precache]
    exact h
  | take hqueued =>
    rw [h.queue] at hqueued
    cases hqueued
  | close => exact ⟨h.source.close, h.queue, h.next⟩
  | note j => exact ⟨⟨h.source.lookahead, h.source.exhausted⟩, h.queue, h.next⟩

theorem trail {cs : List PlacedChar} (htrail : Trail r cs r') (h : r.Over place) :
    r'.Over place := htrail.keeps (fun _ _ _ => move) h

end Over

end Reader

end PlacedText
