import PlacedText.Proofs.Reader.Unclosed
import PlacedText.Proofs.Source.Blocks

/-!
# The blocks that a reader takes in

`Reader.TakenIn limit n t k handed r` says that a reader of the text `t` has taken in the first `k`
blocks of `n` characters, no more and no less, and that `handed` is what was taken out of its queue.
The rest is still in the source, and the next place of the reader is where it begins
(`Reader.TakenIn.next`).

Taking in comes to one of three things (`Reader.TakesIn`): something is queued already; the block of
index `k` is taken in, and noted with its length and the place of its first character; or there is
no further block.  No other move takes anything in, so that `TakenIn` follows a reader in whatever
it does (`Reader.follows_takenIn`).
-/

namespace PlacedText

open Running

variable {σ : Type} [InputStream CodePoint σ] {limit n k : Nat} {t : Text} {r : Reader σ}
  {handed : List PlacedChar}

/-- The first `k` blocks of `n` characters of a text have been taken in, and the characters `handed`
were taken out of the queue. -/
structure Reader.TakenIn (limit n : Nat) (t : Text) (k : Nat) (handed : List PlacedChar)
    (r : Reader σ) : Prop where
  blockSize : r.settings.blockSize = n
  le_limit : n ≤ limit
  le_length : k ≤ (blocks n t).length
  source : r.source.Holds limit (t.drop (blockStart n t k))
  placed : place .start (t.take (blockStart n t k)) = (handed ++ r.queue, r.next)

namespace Reader

/-- A reader at the start of a source has taken in no block. -/
theorem takenIn_ofSource {source : Source σ} {settings : Settings}
    (hsource : source.Holds limit t) (hlimit : settings.blockSize ≤ limit) :
    (ofSource source settings).TakenIn limit settings.blockSize t 0 [] :=
  ⟨rfl, hlimit, Nat.zero_le _, hsource, rfl⟩

namespace TakenIn

variable {c : PlacedChar} {queue : List PlacedChar} {block : Text}

theorem pos (h : r.TakenIn limit n t k handed) : 0 < n := h.blockSize ▸ r.settings.blockSize_pos

/-- What was taken out and what is queued are the characters of the blocks. -/
theorem chars (h : r.TakenIn limit n t k handed) :
    handed ++ r.queue = (place .start t).1.take (blockStart n t k) := by
  have hcut := cleanCut_blockStart h.pos t k
  have hlength : (handed ++ r.queue).length = blockStart n t k := by
    have hplaced := length_place .start (t.take (blockStart n t k))
    rw [h.placed, List.length_take, Nat.min_eq_left (blockStart_le_length h.pos t k)] at hplaced
    exact hplaced
  have hall := place_append .start hcut
  rw [List.take_append_drop, h.placed] at hall
  rw [hall, List.take_left' hlength]

/-- **The next place** is the place of the first character that is in no block yet. -/
theorem next (h : r.TakenIn limit n t k handed) : r.next = t.placeAt (blockStart n t k) := by
  have hplace := placeAt_of_cleanCut (cleanCut_blockStart h.pos t k)
  rw [List.take_append_drop, List.length_take,
    Nat.min_eq_left (blockStart_le_length h.pos t k), h.placed] at hplace
  exact hplace.symm

/-- Only the source may change, as long as it holds the same. -/
theorem of_source {s : Source σ} (h : r.TakenIn limit n t k handed)
    (hs : s.Holds limit (t.drop (blockStart n t k))) :
    TakenIn limit n t k handed { r with source := s } :=
  ⟨h.blockSize, h.le_limit, h.le_length, hs, h.placed⟩

theorem note (h : r.TakenIn limit n t k handed) (j : Journal) :
    TakenIn limit n t k handed { r with source.journal := j } :=
  h.of_source (h.source.of_stream_eq rfl rfl rfl)

theorem take (h : r.TakenIn limit n t k handed) (hqueue : r.queue = c :: queue) :
    TakenIn limit n t k (handed ++ [c]) { r with queue } := by
  refine ⟨h.blockSize, h.le_limit, h.le_length, h.source, ?_⟩
  rw [h.placed, hqueue, List.append_assoc, List.singleton_append]

end TakenIn

/-! ### Taking in -/

/-- What taking in comes to. -/
inductive TakesIn (limit n : Nat) (t : Text) (k : Nat) (handed : List PlacedChar) (r : Reader σ) :
    EStateM.Result ReadError (Reader σ) Unit → Prop where
  /-- Something is queued already. -/
  | stocked (queue : r.queue ≠ []) : TakesIn limit n t k handed r (.ok () r)
  /-- The next block is taken in, and noted. -/
  | block {block : Text} {r' : Reader σ} (queue : r.queue = [])
      (getElem? : (blocks n t)[k]? = some block) (taken : r'.TakenIn limit n t (k + 1) handed)
      (journal : r'.source.journal =
        r.source.journal.note (.refill block.length (t.placeAt (blockStart n t k)))) :
      TakesIn limit n t k handed r (.ok () r')
  /-- There is no further block. -/
  | ended {r' : Reader σ} (queue : r.queue = []) (length : k = (blocks n t).length)
      (taken : r'.TakenIn limit n t k handed) (journal : r'.source.journal = r.source.journal) :
      TakesIn limit n t k handed r (.error (.endOfData r.next) r')

/-- A refill before the end of the text takes the next block in. -/
theorem refill_of_takenIn (h : r.TakenIn limit n t k handed) (hqueue : r.queue = [])
    (hrest : t.drop (blockStart n t k) ≠ []) : TakesIn limit n t k handed r (refill r) := by
  obtain ⟨s, hread, hs⟩ := Source.readBlock_of_holds h.source h.pos h.le_limit
  have hblock := getElem?_blocks h.pos t k
  rw [if_neg hrest] at hblock
  rw [← drop_blockStart_succ h.pos hrest] at hs
  generalize (t.drop (blockStart n t k)).take (blockLength n _) = block at hread hblock
  -- Reading the block has noted nothing, so that the refill is the next event.
  have hnothing : s.journal = r.source.journal :=
    ((Source.readBlock_settles r.source n).beside_of_eq_ok hread).journal
  rw [← h.blockSize] at hread
  rw [refill_of_readBlock hread, hqueue, List.nil_append]
  refine .block hqueue hblock ⟨h.blockSize, h.le_limit, ?_, hs.of_stream_eq rfl rfl rfl, ?_⟩ ?_
  · exact Nat.succ_le_of_lt (List.getElem?_eq_some_iff.1 hblock).1
  · -- The cut in front of the block is clean, so that it is placed behind the blocks before it.
    have hcut := cleanCut_blockStart h.pos t k
    rw [drop_blockStart_eq_append h.pos hblock] at hcut
    rw [take_blockStart_succ h.pos hblock, place_append .start hcut.of_append, h.placed, hqueue,
      List.append_nil]
  · rw [hnothing, h.next]

/-- **Taking in** comes to one of three things. -/
theorem precache_of_takenIn (h : r.TakenIn limit n t k handed) :
    TakesIn limit n t k handed r (precache r) := by
  by_cases hqueue : r.queue = []
  · have hlimit : 0 < limit := Nat.lt_of_lt_of_le h.pos h.le_limit
    obtain ⟨s, hend, hs⟩ := Source.atEnd_of_holds h.source hlimit
    have hnothing : s.journal = r.source.journal :=
      ((Source.atEnd_settles r.source).beside_of_eq_ok hend).journal
    have hr := h.of_source hs
    by_cases hrest : t.drop (blockStart n t k) = []
    · rw [hrest, List.isEmpty_nil] at hend
      rw [precache_of_atEnd hqueue hend]
      refine .ended hqueue (Nat.le_antisymm h.le_length ?_) hr hnothing
      have hblock := getElem?_blocks h.pos t k
      rw [if_pos hrest] at hblock
      exact List.getElem?_eq_none_iff.1 hblock
    · rw [List.isEmpty_eq_false_iff.2 hrest] at hend
      rw [precache_of_not_atEnd hqueue hend]
      -- The look at the end has changed the source, but neither what it holds nor the journal.
      have htakes := refill_of_takenIn hr hqueue hrest
      generalize refill { r with source := s } = result at htakes ⊢
      cases htakes with
      | stocked hne => exact absurd hqueue hne
      | block _ getElem? taken journal =>
        exact .block hqueue getElem? taken (journal.trans (by rw [hnothing]))
      | ended _ length taken journal =>
        exact .ended hqueue length taken (journal.trans hnothing)
  · rw [precache_of_queue hqueue]
    exact .stocked hqueue

/-- Asking for the end takes nothing in. -/
theorem TakenIn.ask (h : r.TakenIn limit n t k handed) :
    (endState (atEnd r)).TakenIn limit n t k handed ∧
      (endState (atEnd r)).source.journal = r.source.journal := by
  by_cases hqueue : r.queue = []
  · have hlimit : 0 < limit := Nat.lt_of_lt_of_le h.pos h.le_limit
    obtain ⟨s, hend, hs⟩ := Source.atEnd_of_holds h.source hlimit
    rw [atEnd_of_source hqueue hend]
    exact ⟨h.of_source hs, ((Source.atEnd_settles r.source).beside_of_eq_ok hend).journal⟩
  · rw [atEnd_of_queue hqueue]
    exact ⟨h, rfl⟩

/-- However often it is asked, and whatever is taken out of it, a reader has taken in a number of
blocks. -/
theorem follows_takenIn (limit n : Nat) (t : Text) :
    Follows fun handed (r : Reader σ) => ∃ k, r.TakenIn limit n t k handed where
  ask := fun _ _ ⟨k, h⟩ => ⟨k, h.ask.1⟩
  fill := by
    rintro handed r ⟨k, h⟩
    have htakes := precache_of_takenIn h
    generalize precache r = result at htakes ⊢
    cases htakes with
    | stocked queue => exact ⟨k, h⟩
    | block _ _ taken => exact ⟨k + 1, taken⟩
    | ended _ _ taken => exact ⟨k, taken⟩
  take := fun _ _ _ _ ⟨k, h⟩ hqueue => ⟨k, h.take hqueue⟩
  note := fun _ _ j ⟨k, h⟩ => ⟨k, h.note j⟩

end Reader

end PlacedText
