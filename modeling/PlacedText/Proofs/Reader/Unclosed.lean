import PlacedText.Proofs.Reader.Fault
import PlacedText.Proofs.Reader.Latching
import PlacedText.Proofs.Reader.Meeting

/-!
# Readers that are not closed

A stream that is closed need not serve its text any longer, so what is known of a reader by its text
is known until it is closed.  Once closed it stays closed (`Reader.Trail.closed`), and so a reader
that is not closed in the end was not closed on the way.

`Reader.Follows I` says that `I handed r` follows a reader `r` of which the characters `handed` were
taken out, whatever it does but closing.  Then `I` holds at the end of a trail if the reader is not
closed there (`Reader.Follows.trail`).
-/

namespace PlacedText

open Running

variable {σ : Type} [InputStream CodePoint σ]

namespace Source

theorem atEnd_keeps_closed (b : Bool) : Keeps (fun s : Source σ => s.closed = b) atEnd :=
  fun s h => (atEnd_settles s).beside.closed.trans h

theorem readBlock_keeps_closed (b : Bool) (n : Nat) :
    Keeps (fun s : Source σ => s.closed = b) (readBlock n) :=
  fun s h => (readBlock_settles s n).beside.closed.trans h

/-- A source is closed after closing, whether or not that failed. -/
theorem closed_close (s : Source σ) : (endState (close s)).closed = true := by
  cases h : s.closed with
  | true =>
    rw [close_of_closed h]
    exact h
  | false => rw [endState_close_of_open h]

end Source

namespace Reader

variable {r r' : Reader σ} {cs : List PlacedChar}

/-- Asking, taking in and taking out leave a reader closed or not, as it was. -/
theorem bears_closed (b : Bool) :
    Bears (fun r : Reader σ => r.source.closed = b) fun _ => True where
  ask _ hr := atEnd_keeps (Source.atEnd_keeps_closed b) hr
  fill _ hr := precache_keeps (Source.atEnd_keeps_closed b) (Source.readBlock_keeps_closed b)
    (fun _ _ _ h => h) hr
  take _ _ _ hr _ := hr
  fault _ _ _ _ _ := trivial

/-- **A closed reader stays closed.** -/
theorem Trail.closed (h : Trail r cs r') (hr : r.source.closed = true) :
    r'.source.closed = true := by
  refine h.keeps (I := fun r => r.source.closed = true) (fun r c r' hmove hr => ?_) hr
  cases hmove with
  | ask => exact (bears_closed true).ask hr
  | fill => exact (bears_closed true).fill hr
  | take queued => exact hr
  | close => exact Source.closed_close r.source
  | note j => exact hr

/-- A property of a reader and of the characters taken out of it, which follows the reader in all
that it does but closing. -/
structure Follows (I : List PlacedChar → Reader σ → Prop) : Prop where
  ask : ∀ ⦃handed r⦄, I handed r → I handed (endState (atEnd r))
  fill : ∀ ⦃handed r⦄, I handed r → I handed (endState (precache r))
  take : ∀ ⦃handed r c queue⦄, I handed r → r.queue = c :: queue →
    I (handed ++ [c]) { r with queue }
  note : ∀ ⦃handed r⦄ j, I handed r → I handed { r with source.journal := j }

/-- What follows a reader holds at the end of a trail, if the reader is not closed there. -/
theorem Follows.trail {I : List PlacedChar → Reader σ → Prop} (hI : Follows I)
    (htrail : Trail r cs r') (hopen : r'.source.closed = false) {handed : List PlacedChar}
    (h : I handed r) : I (handed ++ cs) r' := by
  induction htrail generalizing handed with
  | stay r =>
    rw [List.append_nil]
    exact h
  | @move r r₁ r' c cs hmove hrest ih =>
    cases hmove with
    | ask => exact ih hopen (hI.ask h)
    | fill => exact ih hopen (hI.fill h)
    | take queued =>
      have hrest' := ih hopen (hI.take h queued)
      rw [List.append_assoc] at hrest'
      exact hrest'
    | close =>
      -- A reader that was closed on the way would be closed in the end.
      rw [hrest.closed (Source.closed_close r.source)] at hopen
      cases hopen
    | note j => exact ih hopen (hI.note j h)

end Reader

end PlacedText
