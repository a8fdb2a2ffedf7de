import PlacedText.Proofs.Placed.Reference
import PlacedText.Proofs.Source.Steps
import PlacedText.Proofs.Stream.Serving

/-!
# What a source holds

`Source.Holds limit t s` says that the text `t` is what the source `s` still has to give: its
lookahead, which is one character at most, and then what its stream serves.  Once the source is
exhausted nothing is left, whatever the stream does.

Each action of a source is then told by the text alone: looking shows the first character
(`Source.peek_of_holds`), reading takes off the front (`Source.readUpTo_of_holds`), and reading a
block takes off as many characters as `blockLength` says (`Source.readBlock_of_holds`), which makes
a clean cut (`cleanCut_blockLength`).  How the stream cuts its answers shows nowhere.
-/

namespace PlacedText

variable {σ : Type} [InputStream CodePoint σ] {limit n : Nat} {t : Text} {s : Source σ}

/-- The number of characters in a block that is to have `n` of them: one more if that keeps a
carriage return and the line feed after it together. -/
def blockLength (n : Nat) (t : Text) : Nat :=
  if (t.take n).getLast? = some .carriageReturn ∧ t[n]? = some .lineFeed then n + 1 else n

/-- A block ends at a clean cut. -/
theorem cleanCut_blockLength (n : Nat) (t : Text) :
    CleanCut (t.take (blockLength n t)) (t.drop (blockLength n t)) := by
  unfold blockLength CleanCut
  split
  · next h =>
    -- The block ends in the line feed that was added.
    have hlast : (t.take (n + 1)).getLast? = some .lineFeed := by
      rw [List.take_add_one, h.2, Option.toList_some, List.getLast?_concat]
    rw [hlast]
    intro hreturn
    cases hreturn
  · next h =>
    intro hreturn hfeed
    rw [List.head?_drop] at hfeed
    exact h ⟨hreturn, hfeed⟩

theorem le_blockLength (n : Nat) (t : Text) : n ≤ blockLength n t := by
  unfold blockLength
  split
  · exact Nat.le_succ n
  · exact Nat.le_refl n

/-- A block has a character, if there is one. -/
theorem take_blockLength_ne_nil (hn : 0 < n) (ht : t ≠ []) : t.take (blockLength n t) ≠ [] := by
  have hlength : n ≤ blockLength n t := le_blockLength n t
  intro hnil
  rcases List.take_eq_nil_iff.1 hnil with hzero | hnil
  · omega
  · exact ht hnil

/-- The text that a source still has to give. -/
inductive Source.Holds (limit : Nat) : Text → Source σ → Prop where
  /-- The data has ended. -/
  | ended {s : Source σ} (exhausted : s.exhausted = true) (lookahead : s.lookahead = []) :
      Holds limit [] s
  /-- The text is still in the stream. -/
  | behind {t : Text} {s : Source σ} (exhausted : s.exhausted = false)
      (lookahead : s.lookahead = []) (serves : Serves limit t s.stream) : Holds limit t s
  /-- The first character was looked at. -/
  | ahead {c : CodePoint} {t : Text} {s : Source σ} (exhausted : s.exhausted = false)
      (lookahead : s.lookahead = [c]) (serves : Serves limit t s.stream) : Holds limit (c :: t) s

namespace Source

/-- A source that was not used yet holds what its stream serves. -/
theorem holds_of_serves {stream : σ} (h : Serves limit t stream) (journal : Journal) :
    Holds limit t ({ stream, journal } : Source σ) := .behind rfl rfl h

/-- The journal and the closing of a source have no part in what it holds. -/
theorem Holds.of_stream_eq {s' : Source σ} (h : s.Holds limit t)
    (hstream : s'.stream = s.stream) (hlookahead : s'.lookahead = s.lookahead)
    (hexhausted : s'.exhausted = s.exhausted) : s'.Holds limit t := by
  cases h with
  | ended h₁ h₂ => exact .ended (hexhausted.trans h₁) (hlookahead.trans h₂)
  | behind h₁ h₂ h₃ => exact .behind (hexhausted.trans h₁) (hlookahead.trans h₂) (hstream ▸ h₃)
  | ahead h₁ h₂ h₃ => exact .ahead (hexhausted.trans h₁) (hlookahead.trans h₂) (hstream ▸ h₃)

/-- Clearing the lookahead takes its character off the text. -/
theorem Holds.drop_lookahead {c : CodePoint} (h : s.Holds limit t) (hahead : s.lookahead = [c]) :
    Holds limit (t.drop 1) { s with lookahead := [] } := by
  cases h with
  | ended _ hnil => rw [hahead] at hnil; cases hnil
  | behind _ hnil => rw [hahead] at hnil; cases hnil
  | ahead hexhausted _ hserves => exact .behind hexhausted rfl hserves

/-! ### Pulling and looking -/

/-- Pulling at the end of the text gives nothing, and the source is exhausted. -/
theorem pull_of_holds_nil (h : s.Holds limit []) (hahead : s.lookahead = []) (hn : 0 < n)
    (hlimit : n ≤ limit) :
    ∃ s', pull n s = .ok [] s' ∧ s'.exhausted = true ∧ s'.lookahead = [] := by
  cases h with
  | ended hexhausted => exact ⟨s, pull_of_exhausted hexhausted n, hexhausted, hahead⟩
  | behind hexhausted _ hserves =>
    obtain ⟨a, stream, rest, hread, htakes, -⟩ := hserves.read hn hlimit
    have hnil : a.toList = [] := (List.append_eq_nil_iff.1 htakes.eq_append.symm).1
    have hpull := pull_of_answer hexhausted hread
    rw [hnil] at hpull
    exact ⟨_, hpull, rfl, hahead⟩

/-- Pulling takes between one and `n` characters off the front of a text. -/
theorem pull_of_holds (h : s.Holds limit t) (hahead : s.lookahead = []) (ht : t ≠ [])
    (hn : 0 < n) (hlimit : n ≤ limit) :
    ∃ c rest s', pull n s = .ok c s' ∧ c ≠ [] ∧ c.length ≤ n ∧ t = c ++ rest ∧
      s'.exhausted = false ∧ s'.lookahead = [] ∧ Serves limit rest s'.stream := by
  cases h with
  | ended => exact absurd rfl ht
  | behind hexhausted _ hserves =>
    obtain ⟨a, stream, rest, hread, htakes, hrest⟩ := hserves.read hn hlimit
    have hne : a.toList ≠ [] := htakes.ne_nil ht
    exact ⟨a.toList, rest, _, pull_of_answer hexhausted hread, hne, htakes.length_le,
      htakes.eq_append, List.isEmpty_eq_false_iff.2 hne, hahead, hrest ht⟩
  | ahead _ hlookahead => rw [hahead] at hlookahead; cases hlookahead

/-- Looking shows the first character and takes nothing. -/
theorem peek_of_holds (h : s.Holds limit t) (hlimit : 0 < limit) :
    ∃ s', peek s = .ok (t.take 1) s' ∧ s'.Holds limit t ∧ s'.lookahead = t.take 1 := by
  by_cases hahead : s.lookahead = []
  · by_cases ht : t = []
    · subst ht
      obtain ⟨s', hpull, hexhausted, -⟩ := pull_of_holds_nil h hahead Nat.one_pos hlimit
      exact ⟨_, peek_of_pull hahead hpull, .ended hexhausted rfl, rfl⟩
    · obtain ⟨c, rest, s', hpull, hne, hlength, rfl, hexhausted, -, hserves⟩ :=
        pull_of_holds h hahead ht Nat.one_pos hlimit
      -- One character was asked for, so one was given.
      obtain ⟨c, rfl⟩ : ∃ d, c = [d] :=
        List.length_eq_one_iff.1 (Nat.le_antisymm hlength (List.length_pos_iff.2 hne))
      exact ⟨_, peek_of_pull hahead hpull, .ahead hexhausted rfl hserves, rfl⟩
  · cases h with
    | ended _ hnil => exact absurd hnil hahead
    | behind _ hnil => exact absurd hnil hahead
    | ahead hexhausted hlookahead hserves =>
      refine ⟨s, ?_, .ahead hexhausted hlookahead hserves, hlookahead⟩
      rw [peek_of_lookahead hahead, hlookahead]
      rfl

/-- The data has ended when there is no text left. -/
theorem atEnd_of_holds (h : s.Holds limit t) (hlimit : 0 < limit) :
    ∃ s', atEnd s = .ok t.isEmpty s' ∧ s'.Holds limit t := by
  obtain ⟨s', hpeek, hs', -⟩ := peek_of_holds h hlimit
  refine ⟨s', ?_, hs'⟩
  rw [atEnd_of_peek hpeek]
  cases t <;> rfl

/-! ### Reading -/

/-- Gathering takes the next `n` characters, however the stream cuts them. -/
theorem gather_of_holds (h : s.Holds limit t) (hahead : s.lookahead = []) (hlimit : n ≤ limit)
    (parts : List Text) :
    ∃ s', gather n parts s = .ok (parts.reverse.flatten ++ t.take n) s' ∧
      s'.Holds limit (t.drop n) := by
  induction n using Nat.strongRecOn generalizing t s parts with
  | ind n ih =>
  by_cases hn : n = 0
  · subst hn
    refine ⟨s, ?_, h⟩
    rw [gather_zero, List.take_zero, List.append_nil]
  · have hpos : 0 < n := Nat.pos_of_ne_zero hn
    by_cases ht : t = []
    · subst ht
      obtain ⟨s', hpull, hexhausted, hahead'⟩ := pull_of_holds_nil h hahead hpos hlimit
      refine ⟨s', ?_, ?_⟩
      · rw [gather_of_pull_nil hpos hpull, List.take_nil, List.append_nil]
      · rw [List.drop_nil]
        exact .ended hexhausted hahead'
    · obtain ⟨c, rest, s', hpull, hne, hlength, rfl, hexhausted, hahead', hserves⟩ :=
        pull_of_holds h hahead ht hpos hlimit
      -- The piece is shorter than what is wanted or just as long, so less is wanted afterwards.
      have hc : 0 < c.length := List.length_pos_iff.2 hne
      obtain ⟨s'', hgather, hs''⟩ := ih (n - c.length) (by omega)
        (.behind hexhausted hahead' hserves) hahead' (by omega) (c :: parts)
      refine ⟨s'', ?_, ?_⟩
      · rw [gather_of_pull hpos hpull hne, hgather, List.reverse_cons, List.flatten_append,
          List.flatten_singleton, List.append_assoc, List.take_append,
          List.take_of_length_le hlength]
      · rw [List.drop_append, List.drop_of_length_le hlength, List.nil_append]
        exact hs''

/-- Reading takes the next `n` characters, or all that are left. -/
theorem readUpTo_of_holds (h : s.Holds limit t) (hn : 0 < n) (hlimit : n ≤ limit) :
    ∃ s', readUpTo n s = .ok (t.take n) s' ∧ s'.Holds limit (t.drop n) := by
  by_cases hahead : s.lookahead = []
  · rw [readUpTo_of_lookahead_nil hn hahead]
    exact gather_of_holds h hahead hlimit []
  · rw [readUpTo_of_lookahead hn hahead]
    cases h with
    | ended _ hnil => exact absurd hnil hahead
    | behind _ hnil => exact absurd hnil hahead
    | @ahead c t _ hexhausted hlookahead hserves =>
      -- The character looked at is read first and counts as one.
      obtain ⟨m, rfl⟩ : ∃ m, n = m + 1 := ⟨n - 1, by omega⟩
      rw [hlookahead]
      exact gather_of_holds (s := { s with lookahead := [] }) (.behind hexhausted rfl hserves) rfl
        (by omega) [[c]]

/-! ### Blocks -/

/-- Reading a block takes as many characters as `blockLength` says. -/
theorem readBlock_of_holds (h : s.Holds limit t) (hn : 0 < n) (hlimit : n ≤ limit) :
    ∃ s', readBlock n s = .ok (t.take (blockLength n t)) s' ∧
      s'.Holds limit (t.drop (blockLength n t)) := by
  obtain ⟨s₁, hread, hs₁⟩ := readUpTo_of_holds h hn hlimit
  by_cases hreturn : (t.take n).getLast? = some .carriageReturn
  · obtain ⟨s₂, hpeek, hs₂, hlookahead⟩ := peek_of_holds hs₁ (by omega)
    have hshown : (t.drop n).take 1 = t[n]?.toList := by rw [List.take_one, List.head?_drop]
    rw [hshown] at hpeek hlookahead
    by_cases hfeed : t[n]? = some .lineFeed
    · -- The line feed that was looked at comes with the block.
      rw [hfeed] at hpeek hlookahead
      have hlength : blockLength n t = n + 1 := if_pos ⟨hreturn, hfeed⟩
      refine ⟨{ s₂ with lookahead := [] }, ?_, ?_⟩
      · rw [readBlock_of_feed hread hreturn hpeek hlookahead, hlength, List.take_add_one, hfeed]
        rfl
      · rw [hlength, ← List.drop_drop]
        exact hs₂.drop_lookahead hlookahead
    · -- What was looked at stays for the next block.
      have hne : t[n]?.toList ≠ [.lineFeed] := by
        intro hlist
        cases hc : t[n]? with
        | none => rw [hc] at hlist; cases hlist
        | some c =>
          rw [hc] at hfeed hlist
          exact hfeed (congrArg some (List.singleton_inj.1 hlist))
      have hlength : blockLength n t = n := if_neg fun h => hfeed h.2
      rw [hlength]
      exact ⟨s₂, readBlock_of_ne_feed hread hreturn hpeek hne, hs₂⟩
  · have hlength : blockLength n t = n := if_neg fun h => hreturn h.1
    rw [hlength]
    exact ⟨s₁, readBlock_of_ne_return hread hreturn, hs₁⟩

end Source

end PlacedText
