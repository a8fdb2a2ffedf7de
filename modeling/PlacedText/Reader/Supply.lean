import PlacedText.Reader.Cursor
import PlacedText.Source.Supply

/-!
# The supply of a reader

A reader over a finite stream has a supply: the characters it has queued and the supply of its
source.  Every character that is handed out is taken from it, which is why draining ends.
-/

namespace PlacedText

open Running

variable {σ : Type}

/-- An action on the source ends with a value if it does so on the source alone. -/
theorem Reader.onSource_eq_ok_iff {α : Type} {x : SourceM σ α} {r r' : Reader σ} {a : α} :
    Reader.onSource x r = .ok a r' ↔ ∃ s, x r.source = .ok a s ∧ r' = { r with source := s } := by
  unfold Reader.onSource
  cases h : x r.source <;> grind

variable [FiniteStream CodePoint σ]

namespace Reader

/-- A bound on the characters still to be handed out. -/
def supply (r : Reader σ) : Nat := r.queue.length + r.source.supply

theorem supply_le_of_atEnd {r r' : Reader σ} {b : Bool} (h : atEnd r = .ok b r') :
    r'.supply ≤ r.supply := by
  simp only [atEnd, bind_apply, get_apply] at h
  split at h
  · obtain ⟨s, hs, rfl⟩ := onSource_eq_ok_iff.1 h
    have := Source.supply_le_of_atEnd hs
    simp only [supply]
    omega
  · cases h
    exact Nat.le_refl _

theorem supply_le_of_refill {r r' : Reader σ} {u : Unit} (h : refill r = .ok u r') :
    r'.supply ≤ r.supply := by
  simp only [refill, bind_apply, get_apply] at h
  split at h
  · next block v hb =>
    obtain ⟨s, hs, rfl⟩ := onSource_eq_ok_iff.1 hb
    have := Source.supply_le_of_readBlock hs
    cases h
    simp only [supply, Source.supply, List.length_append, length_place] at *
    omega
  · cases h

theorem supply_le_of_precache {r r' : Reader σ} {u : Unit} (h : precache r = .ok u r') :
    r'.supply ≤ r.supply := by
  simp only [precache, bind_apply, get_apply] at h
  split at h
  · obtain ⟨b, v, ha, h⟩ := bind_eq_ok_iff.1 h
    obtain ⟨s, hs, rfl⟩ := onSource_eq_ok_iff.1 ha
    have h1 := Source.supply_le_of_atEnd hs
    split at h
    · cases h
    · have h2 := supply_le_of_refill h
      simp only [supply] at *
      omega
  · cases h
    exact Nat.le_refl _

theorem supply_le_of_peek {r r' : Reader σ} {c : PlacedChar} (h : peek r = .ok c r') :
    r'.supply ≤ r.supply := by
  simp only [peek] at h
  obtain ⟨_, v, hp, h⟩ := bind_eq_ok_iff.1 h
  have h1 := supply_le_of_precache hp
  simp only [bind_apply, get_apply] at h
  cases hq : v.queue with
  | nil => simp only [hq] at h; cases h
  | cons c queue => simp only [hq] at h; cases h; exact h1

/-- A character handed out is taken from the supply. -/
theorem supply_lt_of_read {r r' : Reader σ} {c : PlacedChar} (h : read r = .ok c r') :
    r'.supply < r.supply := by
  simp only [read] at h
  obtain ⟨_, v, hp, h⟩ := bind_eq_ok_iff.1 h
  have h1 := supply_le_of_precache hp
  simp only [bind_apply, get_apply] at h
  cases hq : v.queue with
  | nil => simp only [hq] at h; cases h
  | cons c queue =>
    simp only [hq] at h
    cases h
    simp only [supply, hq, List.length_cons] at *
    omega

end Reader

/-- A cursor that hands out a character takes it from the supply. -/
theorem Cursor.supply_lt_of_next_eq_some {k k' : Cursor} {r r' : Reader σ} {c : PlacedChar}
    (h : k.next r = .ok (some (c, k')) r') : r'.supply < r.supply := by
  cases k with
  | finished => cases h
  | toEnd =>
    obtain ⟨b, v, ha, h⟩ := bind_eq_ok_iff.1 h
    have h1 := Reader.supply_le_of_atEnd ha
    split at h
    · cases h
    · obtain ⟨c, w, hr, h⟩ := bind_eq_ok_iff.1 h
      have h2 := Reader.supply_lt_of_read hr
      cases h
      omega
  | inLine =>
    obtain ⟨b, v, ha, h⟩ := bind_eq_ok_iff.1 h
    have h1 := Reader.supply_le_of_atEnd ha
    split at h
    · cases h
    · obtain ⟨c, w, hr, h⟩ := bind_eq_ok_iff.1 h
      have h2 := Reader.supply_lt_of_read hr
      cases h
      omega
  | afterReturn =>
    obtain ⟨b, v, ha, h⟩ := bind_eq_ok_iff.1 h
    have h1 := Reader.supply_le_of_atEnd ha
    split at h
    · cases h
    · obtain ⟨c, w, hp, h⟩ := bind_eq_ok_iff.1 h
      have h2 := Reader.supply_le_of_peek hp
      split at h
      · obtain ⟨c, w, hr, h⟩ := bind_eq_ok_iff.1 h
        have h3 := Reader.supply_lt_of_read hr
        cases h
        omega
      · cases h

/-- A cursor that finds the run over takes nothing. -/
theorem Cursor.supply_le_of_next_eq_none {k : Cursor} {r r' : Reader σ}
    (h : k.next r = .ok none r') :
    r'.supply ≤ r.supply := by
  cases k with
  | finished => cases h; exact Nat.le_refl _
  | toEnd =>
    obtain ⟨b, v, ha, h⟩ := bind_eq_ok_iff.1 h
    have h1 := Reader.supply_le_of_atEnd ha
    split at h
    · cases h; exact h1
    · obtain ⟨c, w, hr, h⟩ := bind_eq_ok_iff.1 h
      cases h
  | inLine =>
    obtain ⟨b, v, ha, h⟩ := bind_eq_ok_iff.1 h
    have h1 := Reader.supply_le_of_atEnd ha
    split at h
    · cases h; exact h1
    · obtain ⟨c, w, hr, h⟩ := bind_eq_ok_iff.1 h
      cases h
  | afterReturn =>
    obtain ⟨b, v, ha, h⟩ := bind_eq_ok_iff.1 h
    have h1 := Reader.supply_le_of_atEnd ha
    split at h
    · cases h; exact h1
    · obtain ⟨c, w, hp, h⟩ := bind_eq_ok_iff.1 h
      have h2 := Reader.supply_le_of_peek hp
      split at h
      · obtain ⟨c, w, hr, h⟩ := bind_eq_ok_iff.1 h
        cases h
      · cases h; omega

end PlacedText
