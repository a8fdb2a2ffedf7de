import PlacedText.Proofs.Stream.Passing

/-!
# Streams that fail before they end

A stream is *unending* up to faults in `F` if it never says that its data ended: each answer gives
something, until a read fails, and then with a fault in `F`.

Beside it stands the *muted* stream, which gives nothing where the other one fails, and otherwise
what that one gives.  It is faultless, so that all that is known of faultless streams tells what was
read before the fault.  What is heard of it leads over the texts that the failing stream passes over
(`Passes.heard_of_muted`).
-/

namespace PlacedText

variable {σ : Type} {limit : Nat} {F : Fault → Prop}

/-- A stream in which a read that fails gives nothing instead. -/
structure Muted (σ : Type) where
  stream : σ

namespace Muted

section Reading

variable [InputStream CodePoint σ]

/-- Gives what the stream gives, and nothing if that fails; then the stream stays as it was. -/
def read (n : Nat) : EStateM Fault (Muted σ) (Answer CodePoint) := fun m =>
  match InputStream.read n m.stream with
  | .ok a stream => .ok a ⟨stream⟩
  | .error _ _ => .ok (.units []) m

theorem read_of_ok {n : Nat} {s s' : σ} {a : Answer CodePoint}
    (h : InputStream.read n s = .ok a s') : read n ⟨s⟩ = .ok a ⟨s'⟩ := by
  rw [read, h]

theorem read_of_error {n : Nat} {s s' : σ} {e : Fault} (h : InputStream.read n s = .error e s') :
    read n ⟨s⟩ = .ok (.units []) ⟨s⟩ := by
  rw [read, h]

/-- Closes the stream. -/
def close : EStateM Fault (Muted σ) Unit := fun m =>
  match InputStream.close m.stream with
  | .ok u stream => .ok u ⟨stream⟩
  | .error e stream => .error e ⟨stream⟩

end Reading

instance [FiniteStream CodePoint σ] : FiniteStream CodePoint (Muted σ) where
  read := read
  close := close
  supply m := FiniteStream.supply m.stream
  supply_read {n m m' a} h := by
    cases hread : InputStream.read n m.stream with
    | ok b stream =>
      rw [read_of_ok hread] at h
      cases h
      exact FiniteStream.supply_read hread
    | error e stream =>
      rw [read_of_error hread] at h
      cases h
      exact Nat.le_of_eq (Nat.zero_add _)

variable [FiniteStream CodePoint σ]

/-- A muted stream never fails. -/
theorem faultless (limit : Nat) (m : Muted σ) : Faultless limit m := by
  refine ⟨fun _ => True, ?_, trivial⟩
  intro m _ n _ _
  cases hread : InputStream.read n m.stream with
  | ok a stream => exact ⟨a, ⟨stream⟩, read_of_ok hread, fun _ => trivial⟩
  | error e stream => exact ⟨.units [], m, read_of_error hread, fun _ => trivial⟩

end Muted

/-! ### Unending streams -/

section Unending

variable [InputStream CodePoint σ]

/-- A property of streams is kept without an end if each read gives something and keeps it, or fails
with a fault in `F`. -/
def KeptWithoutEnd (limit : Nat) (F : Fault → Prop) (P : σ → Prop) : Prop :=
  ∀ ⦃s : σ⦄, P s → ∀ n, 0 < n → n ≤ limit →
    (∃ e s', InputStream.read n s = .error e s' ∧ F e) ∨
      ∃ a s', InputStream.read n s = .ok a s' ∧ a.toList ≠ [] ∧ P s'

/-- A stream that does not end, and fails only with faults in `F`. -/
def Unending (limit : Nat) (F : Fault → Prop) (s : σ) : Prop :=
  ∃ P : σ → Prop, KeptWithoutEnd limit F P ∧ P s

theorem Unending.read {s : σ} {n : Nat} (h : Unending limit F s) (hn : 0 < n) (hlimit : n ≤ limit) :
    (∃ e s', InputStream.read n s = .error e s' ∧ F e) ∨
      ∃ a s', InputStream.read n s = .ok a s' ∧ a.toList ≠ [] ∧ Unending limit F s' := by
  obtain ⟨P, hkept, hP⟩ := h
  rcases hkept hP n hn hlimit with herror | ⟨a, s', hread, hne, hP'⟩
  · exact .inl herror
  · exact .inr ⟨a, s', hread, hne, P, hkept, hP'⟩

end Unending

end PlacedText
