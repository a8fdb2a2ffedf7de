import PlacedText.Running
import PlacedText.Source

/-!
# The supply of a source

A source over a finite stream has a supply: its lookahead and what its stream can still give.  No
action adds to it, and whatever is read is taken from it.
-/

namespace PlacedText

open Running

variable {σ : Type} [FiniteStream CodePoint σ]

namespace Source
/-- A bound on the characters still to be read. -/
def supply (s : Source σ) : Nat := s.lookahead.length + FiniteStream.supply s.stream

/-- Characters pulled are taken from the stream, and the lookahead stays. -/
theorem supply_le_of_pull {n : Nat} {s s' : Source σ} {t : Text} (h : pull n s = .ok t s') :
    t.length + FiniteStream.supply s'.stream ≤ FiniteStream.supply s.stream ∧
      s'.lookahead = s.lookahead := by
  simp only [pull, bind_apply, get_apply] at h
  split at h
  · cases h; simp
  · simp only [bind_apply, onStream] at h
    cases hr : InputStream.read n s.stream with
    | error e stream => simp only [hr] at h; cases h
    | ok answer stream =>
      have := FiniteStream.supply_read hr
      simp only [hr] at h
      split at h <;> cases h <;> exact ⟨this, rfl⟩

/-- Looking ahead takes nothing from the supply. -/
theorem supply_le_of_peek {s s' : Source σ} {t : Text} (h : peek s = .ok t s') :
    s'.supply ≤ s.supply := by
  simp only [peek, bind_apply, get_apply] at h
  split at h
  · simp only [bind_apply] at h
    cases hp : pull 1 s with
    | error e u => simp only [hp] at h; cases h
    | ok answer u =>
      have := supply_le_of_pull hp
      simp only [hp] at h
      cases h
      simp only [supply]
      omega
  · cases h; exact Nat.le_refl _

theorem supply_le_of_atEnd {s s' : Source σ} {b : Bool} (h : atEnd s = .ok b s') :
    s'.supply ≤ s.supply := by
  simp only [atEnd, bind_eq_ok_iff] at h
  obtain ⟨t, u, hp, h⟩ := h
  cases h
  exact supply_le_of_peek hp

theorem supply_le_of_gather {n : Nat} {parts : List Text} {s s' : Source σ} {t : Text}
    (h : gather n parts s = .ok t s') :
    t.length + FiniteStream.supply s'.stream ≤
      parts.flatten.length + FiniteStream.supply s.stream ∧ s'.lookahead = s.lookahead := by
  fun_induction gather (σ := σ) n parts generalizing s with
  | case1 => cases h; simp [List.length_flatten]
  | case2 n parts hn ih =>
    obtain ⟨c, u, hp, h⟩ := bind_eq_ok_iff.1 h
    have h1 := supply_le_of_pull hp
    split at h
    · cases h
      exact ⟨by simp only [List.length_flatten, List.map_reverse, List.sum_reverse]; omega, h1.2⟩
    · have h2 := ih _ ‹_› h
      rw [h1.2] at h2
      exact ⟨by simp only [List.flatten_cons, List.length_append] at h2; omega, h2.2⟩


/-- Characters read are taken from the supply. -/
theorem supply_le_of_readUpTo {n : Nat} {s s' : Source σ} {t : Text} (h : readUpTo n s = .ok t s') :
    t.length + s'.supply ≤ s.supply := by
  simp only [readUpTo] at h
  split at h
  · cases h; simp
  · simp only [bind_apply, get_apply] at h
    split at h
    · next hl =>
      have := supply_le_of_gather h
      simp only [supply, this.2, List.flatten_nil, List.length_nil] at *
      omega
    · simp only [bind_apply, modify_apply] at h
      have := supply_le_of_gather h
      simp only [supply, List.flatten_cons, List.flatten_nil, List.append_nil, this.2,
        List.length_nil] at *
      omega

theorem supply_le_of_readBlock {n : Nat} {s s' : Source σ} {t : Text}
    (h : readBlock n s = .ok t s') :
    t.length + s'.supply ≤ s.supply := by
  simp only [readBlock] at h
  obtain ⟨block, u, hb, h⟩ := bind_eq_ok_iff.1 h
  have h1 := supply_le_of_readUpTo hb
  split at h
  · obtain ⟨a, v, hp, h⟩ := bind_eq_ok_iff.1 h
    have h2 := supply_le_of_peek hp
    split at h
    · obtain ⟨b, w, hr, h⟩ := bind_eq_ok_iff.1 h
      have h3 := supply_le_of_readUpTo hr
      cases h
      simp only [List.length_append]
      omega
    · cases h
      omega
  · cases h
    exact h1

end Source

end PlacedText
