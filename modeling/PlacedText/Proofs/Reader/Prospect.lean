import PlacedText.Proofs.Reader.Accounting
import PlacedText.Proofs.Reader.Latching

/-!
# What a reader can come to

Whatever the stream, and in whatever state a reader is, there are three things that taking in can
come to (`Reader.prospect`): the data has ended, and it says so; a character is queued; or a fault
of the stream.  Looking and reading come to the same, and asking for the end tells the first from
the second.  So the queue is never found empty after taking in.

One fact carries this: a block begins with what was looked at (`Source.prefix_of_readBlock`), so
that a source which has something to show has a block to give, whatever the block size and whatever
the stream answers.
-/

namespace PlacedText

open Running

variable {σ : Type} [InputStream CodePoint σ] {n : Nat} {s s' : Source σ} {c : Text}
  {r r' : Reader σ} {ended : Bool}

/-! ### Sources -/

namespace Source

/-- What was gathered before stays in front. -/
theorem prefix_of_gather {parts : List Text} (h : gather n parts s = .ok c s') :
    parts.reverse.flatten <+: c := by
  induction n using Nat.strongRecOn generalizing s parts with
  | ind n ih =>
  rw [gather] at h
  by_cases hn : n = 0
  · rw [dif_pos hn] at h
    cases h
    exact List.prefix_rfl
  · rw [dif_neg hn] at h
    obtain ⟨piece, s₁, -, hrest⟩ := bind_eq_ok_iff.1 h
    by_cases hnil : piece = []
    · rw [dif_pos hnil] at hrest
      cases hrest
      exact List.prefix_rfl
    · rw [dif_neg hnil] at hrest
      have hlength : 0 < piece.length := List.length_pos_iff.2 hnil
      have hmore : (piece :: parts).reverse.flatten <+: c := ih _ (by omega) hrest
      rw [List.reverse_cons, List.flatten_append] at hmore
      exact (List.prefix_append _ _).trans hmore

/-- Reading begins with what was looked at. -/
theorem prefix_of_readUpTo (hn : 0 < n) (h : readUpTo n s = .ok c s') : s.lookahead <+: c := by
  by_cases hahead : s.lookahead = []
  · rw [hahead]
    exact List.nil_prefix
  · rw [readUpTo_of_lookahead hn hahead] at h
    have hfront : [s.lookahead].reverse.flatten <+: c := prefix_of_gather h
    rwa [List.reverse_singleton, List.flatten_singleton] at hfront

/-- So does a block. -/
theorem prefix_of_readBlock (hn : 0 < n) (h : readBlock n s = .ok c s') : s.lookahead <+: c := by
  obtain ⟨block, s₁, hread, hrest⟩ := bind_eq_ok_iff.1 h
  have hfront : s.lookahead <+: block := prefix_of_readUpTo hn hread
  by_cases hreturn : block.getLast? = some .carriageReturn
  · rw [if_pos hreturn] at hrest
    obtain ⟨shown, s₂, -, hrest⟩ := bind_eq_ok_iff.1 hrest
    by_cases hfeed : shown = [.lineFeed]
    · rw [if_pos hfeed] at hrest
      obtain ⟨feed, s₃, -, hrest⟩ := bind_eq_ok_iff.1 hrest
      cases hrest
      exact hfront.trans (List.prefix_append _ _)
    · rw [if_neg hfeed] at hrest
      cases hrest
      exact hfront
  · rw [if_neg hreturn] at hrest
    cases hrest
    exact hfront

/-- A source that has not come to its end shows something, and shows it again. -/
theorem lookahead_of_atEnd (h : atEnd s = .ok ended s') : ended = s'.lookahead.isEmpty := by
  obtain ⟨shown, s₁, hpeek, hshown⟩ := bind_eq_ok_iff.1 h
  obtain ⟨rfl, rfl⟩ := EStateM.Result.ok.inj hshown
  rw [lookahead_of_peek hpeek]

/-- Asking again for the end gives the same answer and changes nothing. -/
theorem atEnd_of_atEnd (h : atEnd s = .ok ended s') : atEnd s' = .ok ended s' := by
  cases ended with
  | true => exact (spent_of_atEnd h).atEnd
  | false =>
    have hahead : s'.lookahead.isEmpty = false := (lookahead_of_atEnd h).symm
    rw [atEnd_of_peek (peek_of_lookahead (List.isEmpty_eq_false_iff.1 hahead)), hahead]

end Source

/-! ### Readers -/

namespace Reader

/-- With nothing queued, asking for the end asks the source. -/
theorem exists_source_of_atEnd (hqueue : r.queue = []) (h : atEnd r = .ok ended r') :
    ∃ s, Source.atEnd r.source = .ok ended s ∧ r' = { r with source := s } := by
  cases hend : Source.atEnd r.source with
  | ok ended' s =>
    rw [atEnd_of_source hqueue hend] at h
    cases h
    exact ⟨s, rfl, rfl⟩
  | error e s =>
    rw [atEnd_of_source_fault hqueue hend] at h
    cases h

/-- Taking in comes to the same after asking for the end, which taking in does itself. -/
theorem precache_of_atEnd_ok (h : atEnd r = .ok ended r') : precache r' = precache r := by
  by_cases hqueue : r.queue = []
  · obtain ⟨s, hend, rfl⟩ := exists_source_of_atEnd hqueue h
    have hagain : Source.atEnd s = .ok ended s := Source.atEnd_of_atEnd hend
    cases ended with
    | true =>
      rw [precache_of_atEnd hqueue hend]
      exact precache_of_atEnd (r := { r with source := s }) hqueue hagain
    | false =>
      rw [precache_of_not_atEnd hqueue hend]
      exact precache_of_not_atEnd (r := { r with source := s }) hqueue hagain
  · rw [atEnd_of_queue hqueue] at h
    cases h
    rfl

/-- A reader is stocked if it has been told that the data has not ended. -/
theorem stocked_of_atEnd (h : atEnd r = .ok false r') : r'.Stocked := by
  by_cases hqueue : r.queue = []
  · obtain ⟨s, hend, rfl⟩ := exists_source_of_atEnd hqueue h
    exact .inr (List.isEmpty_eq_false_iff.1 (Source.lookahead_of_atEnd hend).symm)
  · rw [atEnd_of_queue hqueue] at h
    cases h
    exact .inl hqueue

/-- A stocked reader is told so without asking the stream. -/
theorem Stocked.atEnd (h : r.Stocked) : Reader.atEnd r = .ok false r := by
  by_cases hqueue : r.queue = []
  · have hahead : r.source.lookahead ≠ [] := h.resolve_left (not_not_intro hqueue)
    rw [atEnd_of_source hqueue (Source.atEnd_of_peek (Source.peek_of_lookahead hahead)),
      List.isEmpty_eq_false_iff.2 hahead]
  · exact atEnd_of_queue hqueue

/-- What a reader has in prospect: what asking for the end and taking in come to. -/
inductive Prospect (r : Reader σ) : Prop where
  /-- The data has ended; asking tells so, and taking in says where. -/
  | ended {r' : Reader σ} (atEnd : atEnd r = .ok true r')
      (precache : precache r = .error (.endOfData r.next) r')
  /-- The data has not ended, and a character can be had. -/
  | supplied {c : PlacedChar} {queue : List PlacedChar} {r₁ r' : Reader σ}
      (atEnd : atEnd r = .ok false r₁) (precache : precache r = .ok () r')
      (queued : r'.queue = c :: queue)
  /-- The stream fails before a character can be had. -/
  | failing {e : Fault} {r' : Reader σ} (atEnd : ∀ r₁, atEnd r ≠ .ok true r₁)
      (precache : precache r = .error (.fault e) r')

/-- **What taking in comes to.**  There is nothing else than the three prospects. -/
theorem prospect (r : Reader σ) : r.Prospect := by
  by_cases hqueue : r.queue = []
  · cases hend : Source.atEnd r.source with
    | error e s =>
      refine .failing (fun r₁ h => ?_) (precache_of_source_fault hqueue hend)
      rw [atEnd_of_source_fault hqueue hend] at h
      cases h
    | ok ended s =>
      have hatEnd : atEnd r = .ok ended { r with source := s } := atEnd_of_source hqueue hend
      cases ended with
      | true => exact .ended hatEnd (precache_of_atEnd hqueue hend)
      | false =>
        have hahead : s.lookahead ≠ [] :=
          List.isEmpty_eq_false_iff.1 (Source.lookahead_of_atEnd hend).symm
        have hprecache : precache r = refill { r with source := s } :=
          precache_of_not_atEnd hqueue hend
        cases hblock : Source.readBlock r.settings.blockSize s with
        | error e s' =>
          have hrefill : refill { r with source := s } =
              .error (.fault e) { r with source := s' } :=
            refill_of_readBlock_fault (r := { r with source := s }) hblock
          refine .failing (fun r₁ h => ?_) (hprecache.trans hrefill)
          rw [hatEnd] at h
          cases h
        | ok block s' =>
          -- The block begins with what was looked at, so it is not empty.
          have hne : block ≠ [] := fun hnil =>
            hahead (List.prefix_nil.1
              (hnil ▸ Source.prefix_of_readBlock r.settings.blockSize_pos hblock))
          rw [refill_of_readBlock (r := { r with source := s }) hblock] at hprecache
          have hqueued : (place r.next block).1 ≠ [] := fun hnil =>
            hne (place_fst_eq_nil_iff.1 hnil)
          obtain ⟨c, queue, hcons⟩ := List.exists_cons_of_ne_nil hqueued
          have hqueue' : r.queue ++ (place r.next block).1 = c :: queue := by
            rw [hqueue, hcons, List.nil_append]
          exact .supplied hatEnd hprecache hqueue'
  · obtain ⟨c, queue, hcons⟩ := List.exists_cons_of_ne_nil hqueue
    exact .supplied (atEnd_of_queue hqueue) (precache_of_queue hqueue) hcons

/-- After taking in, a character is queued. -/
theorem exists_queue_of_precache (h : precache r = .ok () r') :
    ∃ c queue, r'.queue = c :: queue := by
  cases r.prospect with
  | ended _ hprecache =>
    rw [h] at hprecache
    cases hprecache
  | supplied _ hprecache hqueue =>
    rw [h] at hprecache
    cases hprecache
    exact ⟨_, _, hqueue⟩
  | failing _ hprecache =>
    rw [h] at hprecache
    cases hprecache

/-- So it is after looking. -/
theorem stocked_of_peek {c : PlacedChar} (h : peek r = .ok c r') : r'.Stocked := by
  cases hprecache : precache r with
  | error e r₁ =>
    rw [peek_of_precache_error hprecache] at h
    cases h
  | ok u r₁ =>
    obtain ⟨d, queue, hqueue⟩ := exists_queue_of_precache hprecache
    rw [peek_of_precache hprecache hqueue] at h
    cases h
    refine .inl ?_
    rw [hqueue]
    exact List.cons_ne_nil _ _

end Reader

end PlacedText
