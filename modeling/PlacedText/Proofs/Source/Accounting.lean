import PlacedText.Proofs.Placed.Reference
import PlacedText.Proofs.Source.Steps
import PlacedText.Proofs.Stream.Exchanges

/-!
# What a source has taken

`Source.Accounts limit origin xs taken s` accounts for every character that a source got out of a
stream: the exchanges `xs` lead from the stream `origin` to that of `s`, and what was heard in them
is what was taken out of the source, `taken`, and then its lookahead.  The stream is only known to
be faultless, so an answer, and with it the lookahead, may be longer than what was asked for.

If no answer is, the lookahead also tells a carriage return and a line feed apart that belong
together (`Source.Settled`): a block that was taken never ends between them.
-/

namespace PlacedText

variable {σ : Type} [InputStream CodePoint σ] {limit n : Nat} {origin : σ} {xs xs' : List Exchange}
  {taken c : Text} {s s' : Source σ}

namespace Source

/-- The account of a source: what was heard is what was taken and the lookahead. -/
structure Accounts (limit : Nat) (origin : σ) (xs : List Exchange) (taken : Text) (s : Source σ) :
    Prop where
  exchanged : Exchanged origin xs s.stream
  /-- The stream was never asked for nothing. -/
  asked : ∀ x ∈ xs, 0 < x.asked
  heard_eq : heard xs = taken ++ s.lookahead
  going : s.exhausted = false → (∀ x ∈ xs, ¬x.IsEmpty) ∧ Faultless limit s.stream
  ended : s.exhausted = true → ∃ x ∈ xs, x.IsEmpty
  lookahead_le : AllExact xs → s.lookahead.length ≤ 1

/-- What was taken can be followed by another character without a pair of carriage return and line
feed coming apart: if it ends in a carriage return, the next character is known, and is no line
feed, or there is none. -/
def Settled (taken : Text) (s : Source σ) : Prop :=
  taken.getLast? = some .carriageReturn →
    s.lookahead.head? ≠ some .lineFeed ∧ (s.lookahead = [] → s.exhausted = true)

/-- The characters `c` were taken out of the source `s`, its lookahead first, and `s'` is left,
which looks at nothing. -/
structure Took (limit : Nat) (origin : σ) (xs : List Exchange) (taken : Text) (s : Source σ)
    (c : Text) (xs' : List Exchange) (s' : Source σ) : Prop where
  grown : xs <+: xs'
  accounts : s'.Accounts limit origin xs' (taken ++ c)
  lookahead : s'.lookahead = []
  ahead : s.lookahead <+: c
  nothing : s.exhausted = true → s.lookahead = [] → c = [] ∧ s'.exhausted = true

/-- The source `s` was looked at, and has become `s'`. -/
structure Looked (limit : Nat) (origin : σ) (xs : List Exchange) (taken : Text) (s : Source σ)
    (xs' : List Exchange) (s' : Source σ) : Prop where
  grown : xs <+: xs'
  accounts : s'.Accounts limit origin xs' taken
  ended : s'.lookahead = [] → s'.exhausted = true
  kept : s.lookahead ≠ [] → s' = s
  nothing : s.exhausted = true → s.lookahead = [] → s'.lookahead = []

/-- A source that was not used yet. -/
theorem accounts_fresh {stream : σ} (h : Faultless limit stream) (journal : Journal) :
    Accounts limit stream [] [] ({ stream, journal } : Source σ) where
  exchanged := .nil stream
  asked x hx := absurd hx List.not_mem_nil
  heard_eq := rfl
  going _ := ⟨fun x hx => absurd hx List.not_mem_nil, h⟩
  ended h := by cases h
  lookahead_le _ := Nat.zero_le 1

/-- The journal has no part in the account. -/
theorem Accounts.of_journal (h : s.Accounts limit origin xs taken) (j : Journal) :
    Accounts limit origin xs taken { s with journal := j } :=
  ⟨h.exchanged, h.asked, h.heard_eq, h.going, h.ended, h.lookahead_le⟩

/-! ### Pulling and looking -/

/-- Pulling takes what the stream answers. -/
theorem pull_of_accounts (h : s.Accounts limit origin xs taken) (hahead : s.lookahead = [])
    (hn : 0 < n) (hlimit : n ≤ limit) :
    ∃ c xs' s', pull n s = .ok c s' ∧ Took limit origin xs taken s c xs' s' ∧
      (c = [] → s'.exhausted = true) ∧ (AllExact xs' → c.length ≤ n) := by
  cases hexhausted : s.exhausted with
  | true =>
    -- The stream is not asked.
    refine ⟨[], xs, s, pull_of_exhausted hexhausted n,
      ⟨List.prefix_rfl, ?_, hahead, ?_, fun _ _ => ⟨rfl, hexhausted⟩⟩, fun _ => hexhausted,
      fun _ => Nat.zero_le n⟩
    · rw [List.append_nil]; exact h
    · exact List.prefix_nil.2 hahead
  | false =>
    -- The stream is asked, and one exchange is added to the account.
    obtain ⟨hfull, hfaultless⟩ := h.going hexhausted
    obtain ⟨a, stream, hread, hstream⟩ := hfaultless.read hn hlimit
    have hgrown : xs <+: xs ++ [⟨n, a⟩] := List.prefix_append _ _
    have hmem : ⟨n, a⟩ ∈ xs ++ [⟨n, a⟩] := List.mem_append_right _ List.mem_cons_self
    refine ⟨a.toList, xs ++ [⟨n, a⟩], _, pull_of_answer hexhausted hread,
      ⟨hgrown, ?_, hahead, ?_, ?_⟩, List.isEmpty_iff.2, fun hexact => hexact ⟨n, a⟩ hmem⟩
    · refine ⟨h.exchanged.snoc hread, ?_, ?_, fun hgoing => ⟨?_, ?_⟩, fun hover => ?_,
        fun hexact => h.lookahead_le (hexact.of_grown hgrown)⟩
      · intro x hx
        rcases List.mem_append.1 hx with hx | hx
        · exact h.asked x hx
        · rw [List.mem_singleton.1 hx]
          exact hn
      · rw [heard_snoc hfull, h.heard_eq, hahead, List.append_nil, List.append_nil]
      · intro x hx
        rcases List.mem_append.1 hx with hx | hx
        · exact hfull x hx
        · rw [List.mem_singleton.1 hx]
          exact List.isEmpty_eq_false_iff.1 hgoing
      · exact hstream (List.isEmpty_eq_false_iff.1 hgoing)
      · exact ⟨_, hmem, List.isEmpty_iff.1 hover⟩
    · rw [hahead]; exact List.nil_prefix
    · intro hover
      rw [hexhausted] at hover
      cases hover

/-- Looking pulls one character if nothing was looked at before. -/
theorem peek_of_accounts (h : s.Accounts limit origin xs taken) (hlimit : 0 < limit) :
    ∃ xs' s', peek s = .ok s'.lookahead s' ∧ Looked limit origin xs taken s xs' s' := by
  by_cases hahead : s.lookahead = []
  · obtain ⟨c, xs', s', hpull, htook, hover, hexact⟩ :=
      pull_of_accounts h hahead Nat.one_pos hlimit
    refine ⟨xs', { s' with lookahead := c }, peek_of_pull hahead hpull,
      ⟨htook.grown, ?_, hover, ?_, ?_⟩⟩
    · refine ⟨htook.accounts.exchanged, htook.accounts.asked, ?_, htook.accounts.going,
        htook.accounts.ended, hexact⟩
      rw [htook.accounts.heard_eq, htook.lookahead, List.append_nil]
    · exact fun hne => absurd hahead hne
    · exact fun hexhausted _ => (htook.nothing hexhausted hahead).1
  · exact ⟨xs, s, peek_of_lookahead hahead, ⟨List.prefix_rfl, h, fun hnil => absurd hnil hahead,
      fun _ => rfl, fun _ hnil => absurd hnil hahead⟩⟩

/-- Looking leaves a settled source settled. -/
theorem Looked.settled (h : Looked limit origin xs taken s xs' s') (hsettled : s.Settled taken) :
    s'.Settled taken := by
  intro hreturn
  obtain ⟨hfeed, hover⟩ := hsettled hreturn
  by_cases hahead : s.lookahead = []
  · -- A settled source that looks at nothing is exhausted, so there is nothing to be shown.
    have hnil : s'.lookahead = [] := h.nothing (hover hahead) hahead
    refine ⟨fun hhead => ?_, h.ended⟩
    rw [hnil] at hhead
    cases hhead
  · rw [h.kept hahead]
    exact ⟨hfeed, hover⟩

/-- A source whose lookahead is not a line feed is settled after a look, if no answer was longer
than what was asked for. -/
theorem Looked.settled_of_ne (h : Looked limit origin xs taken s xs' s') (hexact : AllExact xs')
    (hne : s'.lookahead ≠ [.lineFeed]) : s'.Settled taken := by
  intro _
  refine ⟨fun hfeed => ?_, h.ended⟩
  have hlength : s'.lookahead.length ≤ 1 := h.accounts.lookahead_le hexact
  cases hlookahead : s'.lookahead with
  | nil => rw [hlookahead] at hfeed; cases hfeed
  | cons d rest =>
    rw [hlookahead] at hlength hfeed hne
    obtain rfl : rest = [] := List.length_eq_zero_iff.1 (by rw [List.length_cons] at hlength; omega)
    exact hne (by rw [Option.some.inj hfeed])

/-! ### Reading -/

/-- The lookahead is taken by clearing it. -/
theorem Accounts.take_lookahead (h : s.Accounts limit origin xs taken) :
    Accounts limit origin xs (taken ++ s.lookahead) { s with lookahead := [] } :=
  ⟨h.exchanged, h.asked, by rw [h.heard_eq, List.append_nil], h.going, h.ended,
    fun _ => Nat.zero_le 1⟩

/-- What was taken first and what was taken then was taken together. -/
theorem Took.trans {s₁ : Source σ} {xs₁ : List Exchange} {d : Text}
    (h : Took limit origin xs taken s c xs₁ s₁)
    (h' : Took limit origin xs₁ (taken ++ c) s₁ d xs' s') :
    Took limit origin xs taken s (c ++ d) xs' s' where
  grown := h.grown.trans h'.grown
  accounts := by rw [← List.append_assoc]; exact h'.accounts
  lookahead := h'.lookahead
  ahead := h.ahead.trans (List.prefix_append c d)
  nothing hover hahead := by
    obtain ⟨hc, hover₁⟩ := h.nothing hover hahead
    obtain ⟨hd, hover'⟩ := h'.nothing hover₁ h.lookahead
    exact ⟨by rw [hc, hd]; rfl, hover'⟩

/-- Gathering takes what the stream answers until there is enough. -/
theorem gather_of_accounts (h : s.Accounts limit origin xs taken) (hahead : s.lookahead = [])
    (hlimit : n ≤ limit) (parts : List Text) :
    ∃ c xs' s', gather n parts s = .ok (parts.reverse.flatten ++ c) s' ∧
      Took limit origin xs taken s c xs' s' ∧ (0 < n → c = [] → s'.exhausted = true) := by
  induction n using Nat.strongRecOn generalizing s xs taken parts with
  | ind n ih =>
  by_cases hn : n = 0
  · subst hn
    refine ⟨[], xs, s, ?_, ⟨List.prefix_rfl, ?_, hahead, ?_, fun hover _ => ⟨rfl, hover⟩⟩,
      fun hpos => absurd hpos (Nat.lt_irrefl 0)⟩
    · rw [gather_zero, List.append_nil]
    · rw [List.append_nil]; exact h
    · exact List.prefix_nil.2 hahead
  · have hpos : 0 < n := Nat.pos_of_ne_zero hn
    obtain ⟨c, xs₁, s₁, hpull, htook, hover, -⟩ := pull_of_accounts h hahead hpos hlimit
    -- An overlong answer leaves nothing to be wanted: the difference is then zero.
    by_cases hc : c = []
    · subst hc
      refine ⟨[], xs₁, s₁, ?_, htook, fun _ => hover⟩
      rw [gather_of_pull_nil hpos hpull, List.append_nil]
    · have hlength : 0 < c.length := List.length_pos_iff.2 hc
      obtain ⟨d, xs', s', hgather, htook', -⟩ :=
        ih (n - c.length) (by omega) htook.accounts htook.lookahead (by omega) (c :: parts)
      refine ⟨c ++ d, xs', s', ?_, htook.trans htook', ?_⟩
      · rw [gather_of_pull hpos hpull hc, hgather, List.reverse_cons, List.flatten_append,
          List.flatten_singleton, List.append_assoc]
      · exact fun _ hnil => absurd (List.append_eq_nil_iff.1 hnil).1 hc

/-- Reading takes the lookahead and then what the stream answers. -/
theorem readUpTo_of_accounts (h : s.Accounts limit origin xs taken) (hn : 0 < n)
    (hlimit : n ≤ limit) :
    ∃ c xs' s', readUpTo n s = .ok c s' ∧ Took limit origin xs taken s c xs' s' ∧
      (c = [] → s'.exhausted = true) := by
  by_cases hahead : s.lookahead = []
  · rw [readUpTo_of_lookahead_nil hn hahead]
    obtain ⟨c, xs', s', hgather, htook, hover⟩ := gather_of_accounts h hahead hlimit []
    exact ⟨c, xs', s', hgather, htook, hover hn⟩
  · -- However long the lookahead is, it counts as one character.
    rw [readUpTo_of_lookahead hn hahead]
    obtain ⟨c, xs', s', hgather, htook, -⟩ :=
      gather_of_accounts (n := n - 1) h.take_lookahead rfl (by omega) [s.lookahead]
    rw [List.reverse_singleton, List.flatten_singleton] at hgather
    refine ⟨s.lookahead ++ c, xs', s', hgather, ⟨htook.grown, ?_, htook.lookahead,
      List.prefix_append _ _, fun _ hnil => absurd hnil hahead⟩, ?_⟩
    · rw [← List.append_assoc]
      exact htook.accounts
    · exact fun hnil => absurd (List.append_eq_nil_iff.1 hnil).1 hahead

/-! ### Blocks -/

/-- What is taken next makes a clean cut with what was taken before, if the source was settled. -/
theorem Took.cleanCut (h : Took limit origin xs taken s c xs' s') (hsettled : s.Settled taken) :
    CleanCut taken c := by
  intro hreturn
  obtain ⟨hfeed, hover⟩ := hsettled hreturn
  cases hahead : s.lookahead with
  | nil =>
    -- Nothing was looked at because nothing is left, so nothing was taken.
    rw [(h.nothing (hover hahead) hahead).1]
    intro heq
    cases heq
  | cons d rest =>
    -- What was taken begins with what was looked at, and that is no line feed.
    obtain ⟨later, rfl⟩ := h.ahead
    rw [hahead] at hfeed ⊢
    exact hfeed

/-- The source is settled after what was taken if that ends in no carriage return. -/
theorem Took.settled (h : Took limit origin xs taken s c xs' s')
    (hover : c = [] → s'.exhausted = true) (hreturn : c.getLast? ≠ some .carriageReturn) :
    s'.Settled (taken ++ c) := by
  intro hlast
  refine ⟨fun hfeed => ?_, fun _ => hover ?_⟩
  · rw [h.lookahead] at hfeed; cases hfeed
  · cases c with
    | nil => rfl
    | cons d c =>
      -- The last character of all that was taken is that of `d :: c`.
      have hsome := List.getLast?_eq_some_getLast (List.cons_ne_nil d c)
      rw [List.getLast?_append, hsome, Option.some_or, ← hsome] at hlast
      exact absurd hlast hreturn

/-- Reading a block takes at least the lookahead.  If no answer is longer than what was asked for, a
source that was settled makes a clean cut there and is settled again. -/
theorem readBlock_of_accounts (h : s.Accounts limit origin xs taken) (hn : 0 < n)
    (hlimit : n ≤ limit) :
    ∃ block xs' s', readBlock n s = .ok block s' ∧ xs <+: xs' ∧
      s'.Accounts limit origin xs' (taken ++ block) ∧ s.lookahead <+: block ∧
      (AllExact xs' → s.Settled taken → CleanCut taken block ∧ s'.Settled (taken ++ block)) := by
  obtain ⟨c, xs₁, s₁, hread, htook, hover⟩ := readUpTo_of_accounts h hn hlimit
  by_cases hreturn : c.getLast? = some .carriageReturn
  · obtain ⟨xs₂, s₂, hpeek, hlooked⟩ := peek_of_accounts htook.accounts (by omega)
    have hgrown : xs <+: xs₂ := htook.grown.trans hlooked.grown
    by_cases hfeed : s₂.lookahead = [.lineFeed]
    · -- The line feed comes with the block, which therefore does not end in a carriage return.
      rw [hfeed] at hpeek
      refine ⟨c ++ [.lineFeed], xs₂, _, readBlock_of_feed hread hreturn hpeek hfeed, hgrown, ?_,
        htook.ahead.trans (List.prefix_append _ _), fun _ hsettled => ⟨?_, ?_⟩⟩
      · rw [← List.append_assoc, ← hfeed]
        exact hlooked.accounts.take_lookahead
      · intro hlast
        have hcut : c.head? ≠ some .lineFeed := htook.cleanCut hsettled hlast
        cases c with
        | nil => cases hreturn
        | cons d c => exact hcut
      · intro hlast
        rw [← List.append_assoc, List.getLast?_concat] at hlast
        cases hlast
    · -- The look has settled the source, since it did not show a line feed.
      exact ⟨c, xs₂, s₂, readBlock_of_ne_feed hread hreturn hpeek hfeed, hgrown,
        hlooked.accounts, htook.ahead, fun hexact hsettled =>
        ⟨htook.cleanCut hsettled, hlooked.settled_of_ne hexact hfeed⟩⟩
  · exact ⟨c, xs₁, s₁, readBlock_of_ne_return hread hreturn, htook.grown, htook.accounts,
      htook.ahead, fun _ hsettled =>
      ⟨htook.cleanCut hsettled, htook.settled hover hreturn⟩⟩

end Source

end PlacedText
