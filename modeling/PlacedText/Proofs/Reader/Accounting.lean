import PlacedText.Proofs.Reader.Steps
import PlacedText.Proofs.Source.Accounting

/-!
# What a reader has handed out

`Reader.Delivered limit origin xs handed r` accounts for every character that a reader got out of
the stream `origin` in the exchanges `xs`: what was heard is the text of `handed`, which the reader
has handed out, then the text of its queue, and then the lookahead of its source.  If no answer was
longer than what was asked for, all of them stand where counting from the start puts them.

Each action of the reader keeps the account, and only reading moves a character from the queue to
those handed out.  A reader is *stocked* if it has a character queued or looked at; then looking and
reading do not fail (`Reader.read_of_delivered`).
-/

namespace PlacedText.Reader

variable {σ : Type} [InputStream CodePoint σ] {limit : Nat} {origin : σ} {xs xs' : List Exchange}
  {handed : List PlacedChar} {r : Reader σ} {s : Source σ}

/-- The account of a reader: what was heard is what was handed out, what is queued and what is
looked at. -/
structure Delivered (limit : Nat) (origin : σ) (xs : List Exchange) (handed : List PlacedChar)
    (r : Reader σ) : Prop where
  blockSize_le : r.settings.blockSize ≤ limit
  accounts : r.source.Accounts limit origin xs (textOf (handed ++ r.queue))
  settled : AllExact xs → r.source.Settled (textOf (handed ++ r.queue))
  placed : AllExact xs → place .start (textOf (handed ++ r.queue)) = (handed ++ r.queue, r.next)

/-- A reader that has a character queued or looked at. -/
def Stocked (r : Reader σ) : Prop := r.queue ≠ [] ∨ r.source.lookahead ≠ []

theorem Delivered.limit_pos (h : r.Delivered limit origin xs handed) : 0 < limit :=
  Nat.lt_of_lt_of_le r.settings.blockSize_pos h.blockSize_le

/-- A reader at the start of a faultless stream has handed out nothing. -/
theorem delivered_ofSource {stream : σ} (h : Faultless limit stream) {settings : Settings}
    (hlimit : settings.blockSize ≤ limit) (journal : Journal) :
    (ofSource { stream, journal } settings).Delivered limit stream [] [] where
  blockSize_le := hlimit
  accounts := Source.accounts_fresh h journal
  settled _ hreturn := by cases hreturn
  placed _ := rfl

/-- Looking at the source keeps the account. -/
theorem Delivered.of_looked (h : r.Delivered limit origin xs handed)
    (hlooked : Source.Looked limit origin xs (textOf (handed ++ r.queue)) r.source xs' s) :
    Delivered limit origin xs' handed { r with source := s } where
  blockSize_le := h.blockSize_le
  accounts := hlooked.accounts
  settled hexact := hlooked.settled (h.settled (hexact.of_grown hlooked.grown))
  placed hexact := h.placed (hexact.of_grown hlooked.grown)

/-- The journal has no part in the account. -/
theorem Delivered.of_journal (h : r.Delivered limit origin xs handed) (j : Journal) :
    Delivered limit origin xs handed { r with source.journal := j } :=
  ⟨h.blockSize_le, h.accounts.of_journal j, h.settled, h.placed⟩

/-- Whether the data has ended.  If it has, all that was heard is handed out; otherwise the reader
is stocked. -/
theorem atEnd_of_delivered (h : r.Delivered limit origin xs handed) :
    ∃ ended xs' r', atEnd r = .ok ended r' ∧ xs <+: xs' ∧ r'.Delivered limit origin xs' handed ∧
      (ended = true → heard xs' = textOf handed ∧ ∃ x ∈ xs', x.IsEmpty) ∧
      (ended = false → r'.Stocked) := by
  by_cases hqueue : r.queue = []
  · -- The source is looked at, and what it shows is what is left of what was heard.
    obtain ⟨xs', s, hpeek, hlooked⟩ := Source.peek_of_accounts h.accounts h.limit_pos
    have hend : atEnd r = .ok s.lookahead.isEmpty { r with source := s } :=
      atEnd_of_source hqueue (Source.atEnd_of_peek hpeek)
    refine ⟨_, xs', _, hend, hlooked.grown, h.of_looked hlooked, fun hended => ⟨?_, ?_⟩,
      fun hended => ?_⟩
    · rw [hlooked.accounts.heard_eq, hqueue, List.append_nil, List.isEmpty_iff.1 hended,
        List.append_nil]
    · exact hlooked.accounts.ended (hlooked.ended (List.isEmpty_iff.1 hended))
    · exact .inr (List.isEmpty_eq_false_iff.1 hended)
  · refine ⟨false, xs, r, atEnd_of_queue hqueue, List.prefix_rfl, h, ?_, fun _ => .inl hqueue⟩
    intro hended
    cases hended

/-! ### Taking in -/

/-- A refill queues what was looked at and more, and keeps the account. -/
theorem refill_of_delivered (h : r.Delivered limit origin xs handed) :
    ∃ xs' r', refill r = .ok () r' ∧ xs <+: xs' ∧ r'.Delivered limit origin xs' handed ∧
      (r.source.lookahead ≠ [] → r'.queue ≠ []) := by
  obtain ⟨block, xs', s, hread, hgrown, haccounts, hahead, hblock⟩ :=
    Source.readBlock_of_accounts h.accounts r.settings.blockSize_pos h.blockSize_le
  have htext : textOf (handed ++ (r.queue ++ (place r.next block).1)) =
      textOf (handed ++ r.queue) ++ block := by
    rw [← List.append_assoc, textOf_append _ (place r.next block).1, textOf_place]
  refine ⟨xs', _, refill_of_readBlock hread, hgrown, ⟨h.blockSize_le, ?_, ?_, ?_⟩, ?_⟩
  · rw [htext]
    exact haccounts.of_journal _
  · intro hexact
    rw [htext]
    exact (hblock hexact (h.settled (hexact.of_grown hgrown))).2
  · -- The block begins where the queue ends, at a clean cut, so placing goes on as if at once.
    intro hexact
    have hcut : CleanCut (textOf (handed ++ r.queue)) block :=
      (hblock hexact (h.settled (hexact.of_grown hgrown))).1
    rw [htext, place_append .start hcut, h.placed (hexact.of_grown hgrown), List.append_assoc]
  · intro hne hnil
    have hempty : block = [] := place_fst_eq_nil_iff.1 (List.append_eq_nil_iff.1 hnil).2
    rw [hempty] at hahead
    exact hne (List.prefix_nil.1 hahead)

/-- Taking in keeps the account.  It fails only if the reader is not stocked. -/
theorem precache_of_delivered (h : r.Delivered limit origin xs handed) :
    ∃ xs' r', xs <+: xs' ∧ r'.Delivered limit origin xs' handed ∧
      (precache r = .ok () r' ∧ r'.queue ≠ [] ∨ ¬r.Stocked ∧ ∃ e, precache r = .error e r') := by
  by_cases hqueue : r.queue = []
  · obtain ⟨xs₁, s, hpeek, hlooked⟩ := Source.peek_of_accounts h.accounts h.limit_pos
    have hend := Source.atEnd_of_peek hpeek
    have hs := h.of_looked hlooked
    by_cases hshown : s.lookahead = []
    · -- The data has ended.  A lookahead from before would still be there.
      refine ⟨xs₁, _, hlooked.grown, hs, .inr ⟨?_, _, precache_of_atEnd hqueue ?_⟩⟩
      · rintro (hne | hne)
        · exact hne hqueue
        · rw [← hlooked.kept hne] at hne
          exact hne hshown
      · rw [hend, hshown]
        rfl
    · obtain ⟨xs', r', hrefill, hgrown, hr', hne⟩ := refill_of_delivered hs
      refine ⟨xs', r', hlooked.grown.trans hgrown, hr', .inl ⟨?_, hne hshown⟩⟩
      rw [precache_of_not_atEnd hqueue, hrefill]
      rw [hend, List.isEmpty_eq_false_iff.2 hshown]
  · exact ⟨xs, r, List.prefix_rfl, h, .inl ⟨precache_of_queue hqueue, hqueue⟩⟩

/-! ### Looking and reading -/

/-- Looking keeps the account and leaves the reader stocked.  It fails only if it was not. -/
theorem peek_of_delivered (h : r.Delivered limit origin xs handed) :
    ∃ xs' r', xs <+: xs' ∧ r'.Delivered limit origin xs' handed ∧
      ((∃ c, peek r = .ok c r') ∧ r'.Stocked ∨ ¬r.Stocked ∧ ∃ e, peek r = .error e r') := by
  rcases precache_of_delivered h with
    ⟨xs', r', hgrown, hr', ⟨hok, hne⟩ | ⟨hstocked, e, herror⟩⟩
  · obtain ⟨c, queue, hqueue⟩ := List.exists_cons_of_ne_nil hne
    exact ⟨xs', r', hgrown, hr', .inl ⟨⟨c, peek_of_precache hok hqueue⟩, .inl hne⟩⟩
  · exact ⟨xs', r', hgrown, hr', .inr ⟨hstocked, e, peek_of_precache_error herror⟩⟩

/-- A character goes from the queue to those handed out; the account is about both together. -/
theorem Delivered.take {c : PlacedChar} {queue : List PlacedChar}
    (h : r.Delivered limit origin xs handed) (hqueue : r.queue = c :: queue) :
    Delivered limit origin xs (handed ++ [c]) { r with queue } := by
  have hsame : handed ++ [c] ++ queue = handed ++ r.queue := by
    rw [hqueue, List.append_assoc, List.singleton_append]
  obtain ⟨hblockSize, haccounts, hsettled, hplaced⟩ := h
  rw [← hsame] at haccounts hsettled hplaced
  exact ⟨hblockSize, haccounts, hsettled, hplaced⟩

/-- Reading hands out a character, and the account is kept.  It fails only if the reader is not
stocked, and then nothing is handed out. -/
theorem read_of_delivered (h : r.Delivered limit origin xs handed) :
    ∃ xs' r', xs <+: xs' ∧
      ((∃ c, read r = .ok c r' ∧ r'.Delivered limit origin xs' (handed ++ [c])) ∨
        ¬r.Stocked ∧ ∃ e, read r = .error e r' ∧ r'.Delivered limit origin xs' handed) := by
  rcases precache_of_delivered h with
    ⟨xs', r', hgrown, hr', ⟨hok, hne⟩ | ⟨hstocked, e, herror⟩⟩
  · obtain ⟨c, queue, hqueue⟩ := List.exists_cons_of_ne_nil hne
    exact ⟨xs', _, hgrown, .inl ⟨c, read_of_precache hok hqueue, hr'.take hqueue⟩⟩
  · exact ⟨xs', r', hgrown, .inr ⟨hstocked, e, read_of_precache_error herror, hr'⟩⟩

/-- A stocked reader shows a character, and stays stocked. -/
theorem peek_of_stocked (h : r.Delivered limit origin xs handed) (hr : r.Stocked) :
    ∃ c xs' r', peek r = .ok c r' ∧ xs <+: xs' ∧ r'.Delivered limit origin xs' handed ∧
      r'.Stocked := by
  rcases peek_of_delivered h with
    ⟨xs', r', hgrown, hr', ⟨⟨c, hpeek⟩, hstocked⟩ | ⟨hempty, -⟩⟩
  · exact ⟨c, xs', r', hpeek, hgrown, hr', hstocked⟩
  · exact absurd hr hempty

/-- A stocked reader hands out a character. -/
theorem read_of_stocked (h : r.Delivered limit origin xs handed) (hr : r.Stocked) :
    ∃ c xs' r', read r = .ok c r' ∧ xs <+: xs' ∧
      r'.Delivered limit origin xs' (handed ++ [c]) := by
  rcases read_of_delivered h with
    ⟨xs', r', hgrown, ⟨c, hread, hr'⟩ | ⟨hempty, -⟩⟩
  · exact ⟨c, xs', r', hread, hgrown, hr'⟩
  · exact absurd hr hempty

/-! ### What the account says -/

/-- What was handed out is the beginning of what was heard. -/
theorem Delivered.textOf_begins (h : r.Delivered limit origin xs handed) :
    textOf handed <+: heard xs := by
  rw [h.accounts.heard_eq, textOf_append, List.append_assoc]
  exact List.prefix_append _ _

/-- If no answer was longer than what was asked for, the characters handed out stand where counting
puts them. -/
theorem Delivered.charAt?_of_getElem? (h : r.Delivered limit origin xs handed)
    (hexact : AllExact xs) {k : Nat} {c : PlacedChar} (hk : handed[k]? = some c) :
    (heard xs).charAt? k = some c := by
  -- What was heard is placed in two parts: what was taken, and the lookahead.
  have hcut : CleanCut (textOf (handed ++ r.queue)) r.source.lookahead :=
    fun hreturn => (h.settled hexact hreturn).1
  obtain ⟨hlt, -⟩ := List.getElem?_eq_some_iff.1 hk
  rw [← getElem?_place, h.accounts.heard_eq, place_append .start hcut, h.placed hexact,
    List.append_assoc, List.getElem?_append_left hlt]
  exact hk

end PlacedText.Reader
