import PlacedText.Proofs.Running.Outcome
import PlacedText.Proofs.Source.Steps

/-!
# How far a source is ahead

A source counts what came from its stream: `Source.Ahead I taken s` says that `taken` characters
were taken out of the source `s`, that its lookahead is one character at most, and that `I` holds of
the stream and of the number of characters that have come from it.  What `I` has to meet is
`Giving m I`: the stream is asked for at least one and at most `m` characters and gives no more than
it is asked for.  A read that failed may have lost any number of characters, so that after it every
count will do.

Once the lookahead is there, a block of `n` characters needs only `n - 1` from the stream, and the
line feed that may come with it is looked at alone.  That bounds both what is asked for and what is
taken in at once (`Source.readBlock_ahead`).
-/

namespace PlacedText

variable {σ : Type} [InputStream CodePoint σ] {I : σ → Nat → Prop} {m n taken : Nat}

/-- A property of a stream, and of how many characters have come from it, that is kept if at least
one and at most `m` characters are asked for.  No answer is longer than what was asked for, and
after a fault the number can be any. -/
structure Giving (m : Nat) (I : σ → Nat → Prop) : Prop where
  answer : ∀ {n given : Nat} {stream stream' : σ} {a : Answer CodePoint}, 0 < n → n ≤ m →
    I stream given → InputStream.read n stream = .ok a stream' →
    a.toList.length ≤ n ∧ I stream' (given + a.toList.length)
  fault : ∀ {n given : Nat} {stream stream' : σ} {e : Fault}, 0 < n → n ≤ m →
    I stream given → InputStream.read n stream = .error e stream' → ∀ given', I stream' given'
  close : ∀ {given : Nat} {stream : σ}, I stream given →
    I (Running.endState (InputStream.close stream)) given

namespace Source

variable {s s' : Source σ}

/-- What was taken out of a source and its lookahead, one character at most, are what came from the
stream.  An exhausted source looks at nothing. -/
structure Ahead (I : σ → Nat → Prop) (taken : Nat) (s : Source σ) : Prop where
  given : I s.stream (taken + s.lookahead.length)
  lookahead_le : s.lookahead.length ≤ 1
  ended : s.exhausted = true → s.lookahead = []

/-- The characters `c` were taken out of a source, at most `n`, and it looks at nothing then. -/
structure TookUpTo (I : σ → Nat → Prop) (taken n : Nat) (c : Text) (s : Source σ) : Prop where
  ahead : s.Ahead I (taken + c.length)
  lookahead : s.lookahead = []
  length_le : c.length ≤ n

/-- What a source is like after a fault: nothing is known of what came from the stream. -/
def Lost (I : σ → Nat → Prop) (s : Source σ) : Prop := ∀ taken, s.Ahead I taken

omit [InputStream CodePoint σ] in
/-- A source that looks at nothing is ahead if the stream is. -/
theorem ahead_of_lookahead (h : I s.stream taken) (hahead : s.lookahead = []) :
    s.Ahead I taken := by
  refine ⟨?_, ?_, fun _ => hahead⟩
  · rw [hahead]
    exact h
  · rw [hahead]
    exact Nat.zero_le 1

/-! ### Pulling and looking -/

/-- Pulling takes what the stream answers.  An exhausted source has nothing to give. -/
theorem pull_ahead (hI : Giving m I) (h : s.Ahead I taken) (hahead : s.lookahead = [])
    (hpos : 0 < n) (hle : n ≤ m) :
    ComesTo (fun c s' => TookUpTo I taken n c s' ∧ (s'.exhausted = true → c = [])) (Lost I)
      (pull n s) := by
  have hgiven : I s.stream taken := by
    have hgiven := h.given
    rwa [hahead] at hgiven
  cases hexhausted : s.exhausted with
  | true =>
    rw [pull_of_exhausted hexhausted]
    exact .ok ⟨⟨h, hahead, Nat.zero_le n⟩, fun _ => rfl⟩
  | false =>
    cases hread : InputStream.read n s.stream with
    | ok a stream =>
      obtain ⟨hlength, hstream⟩ := hI.answer hpos hle hgiven hread
      rw [pull_of_answer hexhausted hread]
      exact .ok ⟨⟨ahead_of_lookahead hstream hahead, hahead, hlength⟩, List.isEmpty_iff.1⟩
    | error e stream =>
      rw [pull_of_fault hexhausted hread]
      exact .error fun given => ahead_of_lookahead (hI.fault hpos hle hgiven hread given) hahead

/-- Looking pulls at most one character. -/
theorem peek_ahead (hI : Giving m I) (hm : 0 < m) (h : s.Ahead I taken) :
    ComesTo (fun c s' => s'.Ahead I taken ∧ s'.lookahead = c) (Lost I) (peek s) := by
  by_cases hahead : s.lookahead = []
  · have hpull := pull_ahead hI h hahead Nat.one_pos hm
    rw [peek, Running.bind_apply, Running.get_apply]
    simp only [hahead, List.isEmpty_nil, ↓reduceIte]
    refine hpull.bind ?_
    rintro c s' ⟨htook, hended⟩
    -- What was pulled is looked at, and so it is not taken.
    have hgiven := htook.ahead.given
    rw [htook.lookahead] at hgiven
    exact .ok ⟨⟨hgiven, htook.length_le, hended⟩, rfl⟩
  · rw [peek_of_lookahead hahead]
    exact .ok ⟨h, rfl⟩

/-- Before the end of the data something is looked at. -/
theorem atEnd_ahead (hI : Giving m I) (hm : 0 < m) (h : s.Ahead I taken) :
    ComesTo (fun ended s' => s'.Ahead I taken ∧ (ended = false → s'.lookahead ≠ [])) (Lost I)
      (atEnd s) := by
  refine (peek_ahead hI hm h).bind ?_
  rintro c s' ⟨hs', rfl⟩
  exact .ok ⟨hs', List.isEmpty_eq_false_iff.1⟩

/-! ### Reading -/

/-- Gathering takes no more than is wanted, beyond the parts that were there. -/
theorem gather_ahead (hI : Giving m I) (hle : n ≤ m) {parts : List Text}
    (h : s.Ahead I (taken + parts.flatten.length)) (hahead : s.lookahead = []) :
    ComesTo (TookUpTo I taken (parts.flatten.length + n)) (Lost I) (gather n parts s) := by
  induction n using Nat.strongRecOn generalizing s parts with
  | ind n ih =>
  have hreverse : parts.reverse.flatten.length = parts.flatten.length := by
    simp only [List.length_flatten, List.map_reverse, List.sum_reverse]
  -- What is there already, if nothing more comes.
  have hthere : ∀ {s : Source σ}, s.Ahead I (taken + parts.flatten.length) → s.lookahead = [] →
      TookUpTo I taken (parts.flatten.length + n) parts.reverse.flatten s := by
    intro s hs hnil
    refine ⟨?_, hnil, ?_⟩
    · rw [hreverse]
      exact hs
    · omega
  rw [gather]
  split
  · exact .ok (hthere h hahead)
  · next hn =>
    refine (pull_ahead hI h hahead (Nat.pos_of_ne_zero hn) hle).bind ?_
    rintro c s' ⟨htook, -⟩
    have hs' := htook.ahead
    split
    · next hc =>
      rw [hc] at hs'
      exact .ok (hthere hs' htook.lookahead)
    · next hc =>
      have hpos : 0 < c.length := List.length_pos_iff.2 hc
      have hlength : (c :: parts).flatten.length = parts.flatten.length + c.length := by
        rw [List.flatten_cons, List.length_append, Nat.add_comm]
      rw [Nat.add_assoc, ← hlength] at hs'
      have hrest := ih (n - c.length) (by omega) (by omega) hs' htook.lookahead
      have hwanted : (c :: parts).flatten.length + (n - c.length) = parts.flatten.length + n := by
        have := htook.length_le
        omega
      rw [hwanted] at hrest
      exact hrest

/-- Reading takes the lookahead first, so that one character less is wanted from the stream. -/
theorem readUpTo_ahead (hI : Giving m I) (h : s.Ahead I taken) (hpos : 0 < n) (hle : n - 1 ≤ m)
    (hahead : s.lookahead ≠ []) :
    ComesTo (TookUpTo I taken n) (Lost I) (readUpTo n s) := by
  have hone : [s.lookahead].flatten.length = 1 := by
    have := h.lookahead_le
    have := List.length_pos_iff.2 hahead
    rw [List.flatten_singleton]
    omega
  have htaken : Ahead I (taken + [s.lookahead].flatten.length) { s with lookahead := [] } := by
    refine ahead_of_lookahead ?_ rfl
    rw [List.flatten_singleton]
    exact h.given
  have hgather := gather_ahead hI hle htaken rfl
  rw [hone, Nat.add_sub_cancel' hpos] at hgather
  rw [readUpTo_of_lookahead hpos hahead]
  exact hgather

/-- **A block.**  With something looked at, a block of `n` characters and what is looked at after it
are at most `n + 1` characters. -/
theorem readBlock_ahead (hI : Giving m I) (hm : 0 < m) (h : s.Ahead I taken) (hpos : 0 < n)
    (hle : n - 1 ≤ m) (hahead : s.lookahead ≠ []) :
    ComesTo (fun c s' => s'.Ahead I (taken + c.length) ∧ c.length + s'.lookahead.length ≤ n + 1)
      (Lost I) (readBlock n s) := by
  refine (readUpTo_ahead hI h hpos hle hahead).bind ?_
  intro block s₁ hblock
  split
  · refine (peek_ahead hI hm hblock.ahead).bind ?_
    rintro shown s₂ ⟨hs₂, rfl⟩
    split
    · next hfeed =>
      -- The line feed was looked at, and now it is taken.
      have hone : s₂.lookahead ≠ [] := by rw [hfeed]; exact List.cons_ne_nil _ _
      refine (readUpTo_ahead hI hs₂ Nat.one_pos (Nat.zero_le m) hone).bind ?_
      intro feed s' hfeed
      refine .ok ⟨?_, ?_⟩
      · rw [List.length_append, ← Nat.add_assoc]
        exact hfeed.ahead
      · rw [List.length_append, hfeed.lookahead, List.length_nil]
        have := hblock.length_le
        have := hfeed.length_le
        omega
    · have := hblock.length_le
      have := hs₂.lookahead_le
      exact .ok ⟨hs₂, by omega⟩
  · refine .ok ⟨hblock.ahead, ?_⟩
    rw [hblock.lookahead, List.length_nil]
    have := hblock.length_le
    omega

/-- Closing takes nothing. -/
theorem close_ahead (hI : Giving m I) (h : s.Ahead I taken) :
    (Running.endState (close s)).Ahead I taken := by
  cases hclosed : s.closed with
  | true =>
    rw [close_of_closed hclosed]
    exact h
  | false =>
    rw [endState_close_of_open hclosed]
    exact ⟨hI.close h.given, h.lookahead_le, h.ended⟩

end Source

end PlacedText
