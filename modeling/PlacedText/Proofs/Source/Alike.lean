import PlacedText.Proofs.Running.Alike
import PlacedText.Proofs.Source.Steps

/-!
# Sources that run alike

Only `Source.pull` asks a stream.  If two sources have the same lookahead and pulling from them runs
alike, up to a fault as in `F` that stops the first one, then so does all that is built from it:
looking, reading and reading a block (`Source.PullsAlike`).

The relation between the sources is left open.  A source of a failing stream beside one of the muted
stream is one example; another are two sources that differ in their journals only.
-/

namespace PlacedText.Source

open Running

variable {σ τ : Type} [InputStream CodePoint σ] [InputStream CodePoint τ] {limit n : Nat}
  {F : Fault → Source σ → Prop} {R : Source σ → Source τ → Prop}

/-- A relation under which pulling up to `limit` characters runs alike.  The lookahead is the same
on both sides, and the journals have no part in it. -/
structure PullsAlike (limit : Nat) (F : Fault → Source σ → Prop) (R : Source σ → Source τ → Prop) :
    Prop where
  lookahead : ∀ ⦃s s'⦄, R s s' → s'.lookahead = s.lookahead
  look : ∀ ⦃s s'⦄, R s s' → ∀ c, R { s with lookahead := c } { s' with lookahead := c }
  note : ∀ ⦃s s'⦄, R s s' → ∀ j j', R { s with journal := j } { s' with journal := j' }
  pull : ∀ ⦃n⦄, 0 < n → n ≤ limit → RunUntil F R (pull n) (pull n)

namespace PullsAlike

/-- Looking shows the same. -/
theorem peek (hR : PullsAlike limit F R) (hlimit : 0 < limit) :
    RunUntil F R Source.peek Source.peek := by
  intro s s' h
  by_cases hahead : s.lookahead = []
  · have hahead' : s'.lookahead = [] := (hR.lookahead h).trans hahead
    rw [Source.peek, Source.peek, bind_apply, bind_apply, get_apply, get_apply]
    simp only [hahead, hahead', List.isEmpty_nil, ↓reduceIte]
    exact (hR.pull Nat.one_pos hlimit h).bind fun c s₁ s₁' h₁ => .inr (.ok (hR.look h₁ c))
  · have hahead' : s'.lookahead ≠ [] := by rw [hR.lookahead h]; exact hahead
    rw [peek_of_lookahead hahead, peek_of_lookahead hahead', hR.lookahead h]
    exact .inr (.ok h)

/-- Asking for the end gives the same. -/
theorem atEnd (hR : PullsAlike limit F R) (hlimit : 0 < limit) :
    RunUntil F R Source.atEnd Source.atEnd :=
  (hR.peek hlimit).bind fun c => .pure c.isEmpty

/-- Gathering gives the same. -/
theorem gather (hR : PullsAlike limit F R) (hlimit : n ≤ limit) (parts : List Text) :
    RunUntil F R (Source.gather n parts) (Source.gather n parts) := by
  induction n using Nat.strongRecOn generalizing parts with
  | ind n ih =>
  rw [Source.gather, Source.gather]
  by_cases hn : n = 0
  · rw [dif_pos hn, dif_pos hn]
    exact .pure _
  · rw [dif_neg hn, dif_neg hn]
    refine (hR.pull (Nat.pos_of_ne_zero hn) hlimit).bind fun c => ?_
    by_cases hc : c = []
    · rw [dif_pos hc, dif_pos hc]
      exact .pure _
    · rw [dif_neg hc, dif_neg hc]
      have hlength : 0 < c.length := List.length_pos_iff.2 hc
      exact ih _ (by omega) (by omega) _

/-- Reading gives the same. -/
theorem readUpTo (hR : PullsAlike limit F R) (hlimit : n ≤ limit) :
    RunUntil F R (Source.readUpTo n) (Source.readUpTo n) := by
  by_cases hn : n = 0
  · rw [Source.readUpTo, Source.readUpTo, if_pos hn, if_pos hn]
    exact .pure _
  · have hpos : 0 < n := Nat.pos_of_ne_zero hn
    intro s s' h
    by_cases hahead : s.lookahead = []
    · have hahead' : s'.lookahead = [] := (hR.lookahead h).trans hahead
      rw [readUpTo_of_lookahead_nil hpos hahead, readUpTo_of_lookahead_nil hpos hahead']
      exact hR.gather hlimit [] h
    · have hahead' : s'.lookahead ≠ [] := by rw [hR.lookahead h]; exact hahead
      rw [readUpTo_of_lookahead hpos hahead, readUpTo_of_lookahead hpos hahead', hR.lookahead h]
      exact hR.gather (by omega) [s.lookahead] (hR.look h [])

/-- Reading a block gives the same. -/
theorem readBlock (hR : PullsAlike limit F R) (hn : 0 < n) (hlimit : n ≤ limit) :
    RunUntil F R (Source.readBlock n) (Source.readBlock n) := by
  refine (hR.readUpTo hlimit).bind fun block => ?_
  by_cases hreturn : block.getLast? = some .carriageReturn
  · rw [if_pos hreturn, if_pos hreturn]
    refine (hR.peek (by omega)).bind fun shown => ?_
    by_cases hfeed : shown = [.lineFeed]
    · rw [if_pos hfeed, if_pos hfeed]
      exact (hR.readUpTo (by omega)).bind fun feed => .pure _
    · rw [if_neg hfeed, if_neg hfeed]
      exact .pure _
  · rw [if_neg hreturn, if_neg hreturn]
    exact .pure _

end PullsAlike

/-! ### Streams that answer alike -/

/-- Two sources that are the same but for their journals and their streams, which are related. -/
structure AlikeOver (S : σ → τ → Prop) (s : Source σ) (s' : Source τ) : Prop where
  stream : S s.stream s'.stream
  lookahead : s'.lookahead = s.lookahead
  exhausted : s'.exhausted = s.exhausted

/-- Sources of streams that answer alike pull alike. -/
theorem pullsAlike_over {S : σ → τ → Prop} {G : Fault → σ → Prop}
    (h : ∀ ⦃n⦄, n ≤ limit → RunUntil G S (InputStream.read n) (InputStream.read n)) :
    PullsAlike limit (fun e s => G e s.stream) (AlikeOver S) where
  lookahead _ _ hs := hs.lookahead
  look _ _ hs _ := ⟨hs.stream, rfl, hs.exhausted⟩
  note _ _ hs _ _ := ⟨hs.stream, hs.lookahead, hs.exhausted⟩
  pull n _ hlimit := by
    intro s s' hs
    cases hexhausted : s.exhausted with
    | true =>
      rw [pull_of_exhausted hexhausted, pull_of_exhausted (hs.exhausted.trans hexhausted)]
      exact .inr (.ok hs)
    | false =>
      have hexhausted' : s'.exhausted = false := hs.exhausted.trans hexhausted
      have hanswer := h hlimit hs.stream
      cases hread : InputStream.read n s.stream with
      | ok a stream =>
        rw [hread] at hanswer
        obtain ⟨stream', hread', hstream⟩ := hanswer.of_ok
        rw [pull_of_answer hexhausted hread, pull_of_answer hexhausted' hread']
        exact .inr (.ok ⟨hstream, hs.lookahead, rfl⟩)
      | error e stream =>
        rw [hread] at hanswer
        rw [pull_of_fault hexhausted hread]
        rcases hanswer.of_error with hstop | ⟨stream', hread', hstream⟩
        · exact .inl ⟨e, _, rfl, hstop⟩
        · rw [pull_of_fault hexhausted' hread']
          exact .inr (.error ⟨hstream, hs.lookahead, hs.exhausted⟩)

end PlacedText.Source
