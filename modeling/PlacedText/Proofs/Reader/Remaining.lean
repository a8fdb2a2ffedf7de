import PlacedText.Proofs.Reader.Steps
import PlacedText.Proofs.Source.Holding

/-!
# What remains to be handed out

`Reader.Remains limit ps e r` says that the reader `r` has the placed characters `ps` still to hand
out, and that a further character would stand at `e`.  Part of `ps` is queued, and the rest is what
placing will make of the text that the source holds; the next place of the reader is where that part
begins.

Each action of the reader is then told by `ps` and `e` alone.  The one step with an argument in it
is the refill (`Reader.refill_of_remains`): a block ends at a clean cut, so placing it by itself and
the rest later is the same as placing all at once.
-/

namespace PlacedText

variable {σ : Type} [InputStream CodePoint σ] {limit : Nat} {ps : List PlacedChar} {e : Position}
  {r : Reader σ}

/-- The characters that a reader has still to hand out, and the place behind them. -/
structure Reader.Remains (limit : Nat) (ps : List PlacedChar) (e : Position) (r : Reader σ) :
    Prop where
  blockSize_le : r.settings.blockSize ≤ limit
  source : ∃ t, r.source.Holds limit t ∧ ps = r.queue ++ (place r.next t).1 ∧
    e = (place r.next t).2

namespace Reader

/-- A reader at the start of a source has the whole text to hand out. -/
theorem remains_ofSource {t : Text} {source : Source σ} {settings : Settings}
    (hsource : source.Holds limit t) (hlimit : settings.blockSize ≤ limit) :
    (ofSource source settings).Remains limit (place .start t).1 (place .start t).2 :=
  ⟨hlimit, t, hsource, rfl, rfl⟩

theorem Remains.limit_pos (h : r.Remains limit ps e) : 0 < limit :=
  Nat.lt_of_lt_of_le r.settings.blockSize_pos h.blockSize_le

/-- The journal has no part in what remains. -/
theorem Remains.of_journal (h : r.Remains limit ps e) (j : Journal) :
    Remains limit ps e { r with source.journal := j } := by
  obtain ⟨t, hsource, hps, he⟩ := h.source
  exact ⟨h.blockSize_le, t, hsource.of_stream_eq rfl rfl rfl, hps, he⟩

/-- Whether there are no more characters. -/
theorem atEnd_of_remains (h : r.Remains limit ps e) :
    ∃ r', atEnd r = .ok ps.isEmpty r' ∧ r'.Remains limit ps e ∧ r'.queue = r.queue := by
  obtain ⟨t, hsource, hps, he⟩ := h.source
  by_cases hqueue : r.queue = []
  · -- With nothing queued, what remains is what the source holds.
    obtain ⟨s, hend, hs⟩ := Source.atEnd_of_holds hsource h.limit_pos
    have hempty : t.isEmpty = ps.isEmpty := by
      rw [hps, hqueue, List.nil_append, Bool.eq_iff_iff, List.isEmpty_iff, List.isEmpty_iff,
        place_fst_eq_nil_iff]
    refine ⟨{ r with source := s }, ?_, ⟨h.blockSize_le, t, hs, hps, he⟩, rfl⟩
    rw [atEnd_of_source hqueue hend, hempty]
  · have hne : ps.isEmpty = false := by
      rw [List.isEmpty_eq_false_iff, hps]
      exact fun hnil => hqueue (List.append_eq_nil_iff.1 hnil).1
    refine ⟨r, ?_, h, rfl⟩
    rw [atEnd_of_queue hqueue, hne]

/-! ### Taking in -/

/-- A refill queues a block that is not empty and changes nothing of what remains. -/
theorem refill_of_remains (h : r.Remains limit ps e) (hqueue : r.queue = []) (hps : ps ≠ []) :
    ∃ r', refill r = .ok () r' ∧ r'.Remains limit ps e ∧ r'.queue ≠ [] := by
  obtain ⟨t, hsource, hsplit, he⟩ := h.source
  obtain ⟨s, hread, hs⟩ :=
    Source.readBlock_of_holds hsource r.settings.blockSize_pos h.blockSize_le
  generalize hblock : t.take (blockLength r.settings.blockSize t) = block at hread
  generalize hrest : t.drop (blockLength r.settings.blockSize t) = rest at hs
  have ht : t = block ++ rest := by rw [← hblock, ← hrest, List.take_append_drop]
  have hcut : CleanCut block rest := by
    rw [← hblock, ← hrest]; exact cleanCut_blockLength r.settings.blockSize t
  -- A block of at least one character was asked for, and there is one.
  have hne : block ≠ [] := by
    rw [← hblock]
    refine take_blockLength_ne_nil r.settings.blockSize_pos fun hnil => ?_
    rw [hqueue, hnil] at hsplit
    exact hps hsplit
  -- Placed in two parts at the clean cut: the block now, and the rest from the next place on.
  rw [ht, place_append r.next hcut] at hsplit he
  refine ⟨_, refill_of_readBlock hread,
    ⟨h.blockSize_le, rest, hs.of_stream_eq rfl rfl rfl, ?_, he⟩, ?_⟩
  · rw [hsplit, List.append_assoc]
  · rw [hqueue, List.nil_append]
    exact fun hnil => hne (place_fst_eq_nil_iff.1 hnil)

/-- Taking in succeeds while something remains, and then something is queued. -/
theorem precache_of_remains (h : r.Remains limit ps e) (hps : ps ≠ []) :
    ∃ r', precache r = .ok () r' ∧ r'.Remains limit ps e ∧ r'.queue ≠ [] := by
  obtain ⟨t, hsource, hsplit, he⟩ := h.source
  by_cases hqueue : r.queue = []
  · obtain ⟨s, hend, hs⟩ := Source.atEnd_of_holds hsource h.limit_pos
    have ht : t.isEmpty = false := by
      rw [List.isEmpty_eq_false_iff]
      intro hnil
      rw [hqueue, hnil] at hsplit
      exact hps hsplit
    have hr : Remains limit ps e { r with source := s } := ⟨h.blockSize_le, t, hs, hsplit, he⟩
    rw [precache_of_not_atEnd hqueue (ht ▸ hend)]
    exact refill_of_remains hr hqueue hps
  · exact ⟨r, precache_of_queue hqueue, h, hqueue⟩

/-- Taking in when nothing remains is an error that says where a further character would stand. -/
theorem precache_of_remains_nil (h : r.Remains limit [] e) :
    ∃ r', precache r = .error (.endOfData e) r' ∧ r'.Remains limit [] e := by
  obtain ⟨t, hsource, hsplit, he⟩ := h.source
  obtain ⟨hqueue, hplace⟩ := List.append_eq_nil_iff.1 hsplit.symm
  obtain rfl : t = [] := place_fst_eq_nil_iff.1 hplace
  obtain ⟨s, hend, hs⟩ := Source.atEnd_of_holds hsource h.limit_pos
  refine ⟨{ r with source := s }, ?_, ⟨h.blockSize_le, [], hs, hsplit, he⟩⟩
  rw [precache_of_atEnd hqueue hend, he]
  rfl

/-! ### Looking and reading -/

/-- The first character that is queued is the first that remains. -/
theorem Remains.queue_eq_cons {c : PlacedChar} (h : r.Remains limit (c :: ps) e)
    (hqueue : r.queue ≠ []) : ∃ queue, r.queue = c :: queue := by
  obtain ⟨t, -, hsplit, -⟩ := h.source
  cases hq : r.queue with
  | nil => exact absurd hq hqueue
  | cons d queue =>
    rw [hq, List.cons_append] at hsplit
    rw [(List.cons.inj hsplit).1]
    exact ⟨queue, rfl⟩

/-- Looking gives the first character that remains and leaves it there. -/
theorem peek_of_remains {c : PlacedChar} (h : r.Remains limit (c :: ps) e) :
    ∃ r', peek r = .ok c r' ∧ r'.Remains limit (c :: ps) e := by
  obtain ⟨r', hprecache, hr', hqueue⟩ := precache_of_remains h (List.cons_ne_nil c ps)
  obtain ⟨queue, hq⟩ := hr'.queue_eq_cons hqueue
  exact ⟨r', peek_of_precache hprecache hq, hr'⟩

/-- Reading hands out the first character that remains. -/
theorem read_of_remains {c : PlacedChar} (h : r.Remains limit (c :: ps) e) :
    ∃ r', read r = .ok c r' ∧ r'.Remains limit ps e := by
  obtain ⟨r', hprecache, hr', hqueue⟩ := precache_of_remains h (List.cons_ne_nil c ps)
  obtain ⟨queue, hq⟩ := hr'.queue_eq_cons hqueue
  refine ⟨{ r' with queue }, read_of_precache hprecache hq, ?_⟩
  obtain ⟨t, hsource, hsplit, he⟩ := hr'.source
  rw [hq, List.cons_append] at hsplit
  exact ⟨hr'.blockSize_le, t, hsource, (List.cons.inj hsplit).2, he⟩

/-- Looking when nothing remains is an error. -/
theorem peek_of_remains_nil (h : r.Remains limit [] e) :
    ∃ r', peek r = .error (.endOfData e) r' ∧ r'.Remains limit [] e := by
  obtain ⟨r', hprecache, hr'⟩ := precache_of_remains_nil h
  exact ⟨r', peek_of_precache_error hprecache, hr'⟩

/-- Reading when nothing remains is an error. -/
theorem read_of_remains_nil (h : r.Remains limit [] e) :
    ∃ r', read r = .error (.endOfData e) r' ∧ r'.Remains limit [] e := by
  obtain ⟨r', hprecache, hr'⟩ := precache_of_remains_nil h
  exact ⟨r', read_of_precache_error hprecache, hr'⟩

end Reader

end PlacedText
