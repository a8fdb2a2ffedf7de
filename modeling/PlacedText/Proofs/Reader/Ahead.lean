import PlacedText.Proofs.Reader.Trail
import PlacedText.Proofs.Source.Ahead

/-!
# How far a reader is ahead

A reader takes a block in only when nothing is queued, and then something is looked at.  So what is
queued and looked at together is never more than what one block can bring
(`Source.readBlock_ahead`).

`Reader.Ahead b I taken r` is what is known of a reader with blocks of `b` characters after `taken`
characters were handed out.  Every move keeps it, closing included, and so do all faults.
-/

namespace PlacedText

open Running

variable {σ : Type} [InputStream CodePoint σ] {I : σ → Nat → Prop} {b taken : Nat}
  {r r' : Reader σ} {cs : List PlacedChar}

/-- How many characters a reader with blocks of `b` characters asks for at most. -/
def largestAsked (b : Nat) : Nat := max 1 (b - 1)

namespace Reader

/-- How far a reader is ahead of the `taken` characters that it has handed out. -/
structure Ahead (b : Nat) (I : σ → Nat → Prop) (taken : Nat) (r : Reader σ) : Prop where
  blockSize : r.settings.blockSize = b
  source : r.source.Ahead I (taken + r.queue.length)
  held_le : r.queue.length + r.source.lookahead.length ≤ b + 1

omit [InputStream CodePoint σ] in
/-- A reader with nothing queued is ahead as its source is. -/
theorem ahead_of_source {s : Source σ} (hsize : r.settings.blockSize = b) (hqueue : r.queue = [])
    (hs : s.Ahead I taken) : Ahead b I taken { r with source := s } := by
  refine ⟨hsize, ?_, ?_⟩
  · rw [hqueue]
    exact hs
  · show r.queue.length + s.lookahead.length ≤ b + 1
    have := hs.lookahead_le
    rw [hqueue, List.length_nil]
    omega

omit [InputStream CodePoint σ] in
/-- The source of a reader with nothing queued. -/
theorem Ahead.source_of_queue (h : r.Ahead b I taken) (hqueue : r.queue = []) :
    r.source.Ahead I taken := by
  have hsource := h.source
  rwa [hqueue] at hsource

/-- Asking for the end looks at one character at most. -/
theorem atEnd_ahead (hI : Giving (largestAsked b) I) (h : r.Ahead b I taken) :
    (endState (atEnd r)).Ahead b I taken := by
  by_cases hqueue : r.queue = []
  · have hend := Source.atEnd_ahead hI (Nat.le_max_left 1 _) (h.source_of_queue hqueue)
    cases hatEnd : Source.atEnd r.source with
    | ok ended s =>
      rw [atEnd_of_source hqueue hatEnd]
      exact ahead_of_source h.blockSize hqueue (hend.of_eq_ok hatEnd).1
    | error e s =>
      rw [atEnd_of_source_fault hqueue hatEnd]
      exact ahead_of_source h.blockSize hqueue (hend.of_eq_error hatEnd taken)
  · rw [atEnd_of_queue hqueue]
    exact h

/-- A refill, with something looked at, queues a block. -/
theorem refill_ahead (hI : Giving (largestAsked b) I) (hsize : r.settings.blockSize = b)
    (hqueue : r.queue = []) (hs : r.source.Ahead I taken) (hahead : r.source.lookahead ≠ []) :
    (endState (refill r)).Ahead b I taken := by
  have hblock := Source.readBlock_ahead (n := r.settings.blockSize) hI (Nat.le_max_left 1 _) hs
    r.settings.blockSize_pos (by rw [hsize]; exact Nat.le_max_right 1 _) hahead
  cases hread : Source.readBlock r.settings.blockSize r.source with
  | error e s =>
    rw [refill_of_readBlock_fault hread]
    exact ahead_of_source hsize hqueue (hblock.of_eq_error hread taken)
  | ok block s =>
    obtain ⟨hs', hheld⟩ := hblock.of_eq_ok hread
    have hlength : (r.queue ++ (place r.next block).1).length = block.length := by
      rw [hqueue, List.nil_append, length_place]
    rw [refill_of_readBlock hread]
    refine ⟨hsize, ?_, ?_⟩
    · show Source.Ahead I (taken + (r.queue ++ (place r.next block).1).length) _
      rw [hlength]
      exact ⟨hs'.given, hs'.lookahead_le, hs'.ended⟩
    · show (r.queue ++ (place r.next block).1).length + s.lookahead.length ≤ b + 1
      rw [hlength, ← hsize]
      exact hheld

/-- Taking in asks for the end first, so that something is looked at when a block is read. -/
theorem precache_ahead (hI : Giving (largestAsked b) I) (h : r.Ahead b I taken) :
    (endState (precache r)).Ahead b I taken := by
  by_cases hqueue : r.queue = []
  · have hend := Source.atEnd_ahead hI (Nat.le_max_left 1 _) (h.source_of_queue hqueue)
    cases hatEnd : Source.atEnd r.source with
    | error e s =>
      rw [precache_of_source_fault hqueue hatEnd]
      exact ahead_of_source h.blockSize hqueue (hend.of_eq_error hatEnd taken)
    | ok ended s =>
      obtain ⟨hs, hahead⟩ := hend.of_eq_ok hatEnd
      cases ended with
      | true =>
        rw [precache_of_atEnd hqueue hatEnd]
        exact ahead_of_source h.blockSize hqueue hs
      | false =>
        rw [precache_of_not_atEnd hqueue hatEnd]
        exact refill_ahead (r := { r with source := s }) hI h.blockSize hqueue hs (hahead rfl)
  · rw [precache_of_queue hqueue]
    exact h

/-- **One move.**  A character that is taken out is not queued any longer. -/
theorem Move.ahead (hI : Giving (largestAsked b) I) {c : Option PlacedChar} (hmove : Move r c r')
    (h : r.Ahead b I taken) : r'.Ahead b I (taken + c.toList.length) := by
  cases hmove with
  | ask => exact atEnd_ahead hI h
  | fill => exact precache_ahead hI h
  | @take c queue queued =>
    have hsource := h.source
    have hheld := h.held_le
    rw [queued, List.length_cons] at hsource hheld
    refine ⟨h.blockSize, ?_, ?_⟩
    · show Source.Ahead I (taken + 1 + queue.length) r.source
      rw [Nat.add_assoc, Nat.add_comm 1]
      exact hsource
    · show queue.length + r.source.lookahead.length ≤ b + 1
      omega
  | close =>
    refine ⟨h.blockSize, Source.close_ahead hI h.source, ?_⟩
    show r.queue.length + (endState (Source.close r.source)).lookahead.length ≤ b + 1
    rw [Source.lookahead_close]
    exact h.held_le
  | note j =>
    exact ⟨h.blockSize, ⟨h.source.given, h.source.lookahead_le, h.source.ended⟩, h.held_le⟩

/-- **All moves.** -/
theorem Trail.ahead (hI : Giving (largestAsked b) I) (htrail : Trail r cs r')
    (h : r.Ahead b I taken) : r'.Ahead b I (taken + cs.length) := by
  induction htrail generalizing taken with
  | stay r => exact h
  | move hmove _ ih =>
    rw [List.length_append, ← Nat.add_assoc]
    exact ih (hmove.ahead hI h)

end Reader

end PlacedText
