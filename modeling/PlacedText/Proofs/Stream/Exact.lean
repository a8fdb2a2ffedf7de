import PlacedText.Proofs.Stream.Watched
import PlacedText.Stream.Device

/-!
# Streams that never give too much

A stream is *never overlong* if no answer is longer than what was asked for, whatever was read
before, whatever failed and whether or not the stream was closed.  It may answer with less, with
nothing, or with word that nothing is ready, and go on afterwards; and it may fail.

Memory and decoded bytes are never overlong, and a script is not unless it is told to give its items
whole.
-/

namespace PlacedText

open Running

variable {σ τ : Type} [InputStream CodePoint σ] [InputStream CodePoint τ]

/-- A property of streams that reading, failing and closing keep, and with which no answer is longer
than what was asked for. -/
structure KeptExactly (P : σ → Prop) : Prop where
  answer : ∀ ⦃s n a s'⦄, P s → InputStream.read n s = .ok a s' → a.toList.length ≤ n ∧ P s'
  fault : ∀ ⦃s n e s'⦄, P s → InputStream.read n s = .error e s' → P s'
  close : ∀ ⦃s⦄, P s → P (endState (InputStream.close s))

/-- No answer of the stream is ever longer than what was asked for. -/
def NeverOverlong (s : σ) : Prop := ∃ P : σ → Prop, KeptExactly P ∧ P s

/-- Being never overlong is itself kept. -/
theorem keptExactly_neverOverlong : KeptExactly (NeverOverlong (σ := σ)) where
  answer := by
    rintro s n a s' ⟨P, hP, hs⟩ hread
    obtain ⟨hlength, hs'⟩ := hP.answer hs hread
    exact ⟨hlength, P, hP, hs'⟩
  fault := by
    rintro s n e s' ⟨P, hP, hs⟩ hread
    exact ⟨P, hP, hP.fault hs hread⟩
  close := by
    rintro s ⟨P, hP, hs⟩
    exact ⟨P, hP, hP.close hs⟩

/-- Watching a stream does not make it give more. -/
theorem NeverOverlong.watched {s : σ} (h : NeverOverlong s) (calls : List StreamCall) :
    NeverOverlong (Watched.mk s calls) := by
  refine ⟨fun s => NeverOverlong s.stream, ⟨?_, ?_, ?_⟩, h⟩
  · rintro s n a s' hs hread
    obtain ⟨stream, hread', rfl⟩ := Watched.exists_of_read_eq_ok hread
    exact keptExactly_neverOverlong.answer hs hread'
  · rintro s n e s' hs hread
    obtain ⟨stream, hread', rfl⟩ := Watched.exists_of_read_eq_error hread
    exact keptExactly_neverOverlong.fault hs hread'
  · intro s hs
    rw [Watched.endState_close]
    exact keptExactly_neverOverlong.close hs

/-! ### Memory and scripts -/

/-- A memory gives no more than it is asked for. -/
theorem Memory.neverOverlong (m : Memory CodePoint) : NeverOverlong m := by
  refine ⟨fun _ => True, ⟨?_, fun _ _ _ _ _ _ => trivial, fun _ _ => trivial⟩, trivial⟩
  rintro m n a m' - hread
  replace hread : read n m = .ok a m' := hread
  unfold read at hread
  split at hread
  · cases hread
  · split at hread
    · cases hread
    · cases hread
      exact ⟨List.length_take_le n m.rest, trivial⟩

/-- A script that does not give its items whole gives no more than it is asked for. -/
theorem Script.neverOverlong {s : Script CodePoint} (h : s.overlong = false) :
    NeverOverlong s := by
  refine ⟨fun s => s.overlong = false, ⟨?_, ?_, fun _ hs => hs⟩, h⟩
  · rintro ⟨items, overlong, requests, closings⟩ n a s' rfl hread
    replace hread : read n _ = .ok a s' := hread
    unfold read at hread
    cases items with
    | nil =>
      cases hread
      exact ⟨Nat.zero_le n, rfl⟩
    | cons item items =>
      cases item with
      | notReady =>
        cases hread
        exact ⟨Nat.zero_le n, rfl⟩
      | fail message => cases hread
      | units us =>
        simp only [Bool.false_or] at hread
        split at hread
        · next hrest =>
          cases hread
          exact ⟨List.drop_eq_nil_iff.1 (List.isEmpty_iff.1 hrest), rfl⟩
        · cases hread
          exact ⟨List.length_take_le n us, rfl⟩
  · rintro ⟨items, overlong, requests, closings⟩ n e s' rfl hread
    replace hread : read n _ = .error e s' := hread
    unfold read at hread
    cases items with
    | nil => cases hread
    | cons item items =>
      cases item with
      | notReady => cases hread
      | fail message =>
        cases hread
        rfl
      | units us =>
        simp only at hread
        split at hread <;> cases hread

/-! ### Decoded bytes -/

namespace Decoded

variable {β : Type} [FiniteStream UInt8 β]

/-- No more is gathered than is missing. -/
theorem length_le_of_fill {missing : Nat} {parts : List Text} {d d' : Decoded β} {t : Text}
    (h : fill missing parts d = .ok t d') : t.length ≤ parts.flatten.length + missing := by
  fun_induction fill missing parts d with
  | case1 => cases h; simp [List.length_flatten]
  | case2 => cases h
  | case3 => cases h; simp [List.length_flatten]
  | case4 missing parts d hmissing c d₁ hread hmore ih =>
    have hrest := ih h
    simp only [List.flatten_cons, List.length_append, List.length_take] at hrest
    omega

/-- A stream of decoded bytes gives no more characters than it is asked for. -/
theorem neverOverlong (d : Decoded β) : NeverOverlong d := by
  refine ⟨fun _ => True, ⟨?_, fun _ _ _ _ _ _ => trivial, fun _ _ => trivial⟩, trivial⟩
  rintro d n a d' - hread
  replace hread : read n d = .ok a d' := hread
  refine ⟨?_, trivial⟩
  unfold read at hread
  split at hread
  · cases hread
  · split at hread
    · cases hread
    · simp only at hread
      split at hread
      · cases hread
      · next hfill =>
        cases hread
        have hlength := length_le_of_fill hfill
        simp only [List.flatten_cons, List.flatten_nil, List.append_nil, List.length_take]
          at hlength
        simp only [Answer.toList]
        omega

end Decoded

/-! ### Devices -/

omit [InputStream CodePoint σ] in
/-- A fault of a device is one of the stream that it wraps. -/
theorem Device.eq_error_of_embed {α : Type} {wrap : σ → Device} {x : EStateM.Result Fault σ α}
    {e : Fault} {d : Device} (h : embed wrap x = .error e d) :
    ∃ s, x = .error e s ∧ d = wrap s := by
  cases x with
  | ok a s => cases h
  | error e' s =>
    cases h
    exact ⟨s, rfl, rfl⟩

/-- A way to wrap a stream that reads and closes as the stream does. -/
structure Device.Wraps (wrap : σ → Device) : Prop where
  read : ∀ n s, InputStream.read n (wrap s) = embed wrap (InputStream.read n s)
  close : ∀ s, InputStream.close (wrap s) = embed wrap (InputStream.close s)

theorem Device.wraps_memory : Wraps memory := ⟨fun _ _ => rfl, fun _ => rfl⟩

theorem Device.wraps_bytes : Wraps bytes := ⟨fun _ _ => rfl, fun _ => rfl⟩

omit [InputStream CodePoint σ] in
theorem Device.endState_embed {α : Type} (wrap : σ → Device) (x : EStateM.Result Fault σ α) :
    endState (embed wrap x) = wrap (endState x) := by
  cases x <;> rfl

/-- A device gives no more than the stream that it wraps. -/
theorem NeverOverlong.device {wrap : σ → Device} (hwrap : Device.Wraps wrap) {s : σ}
    (h : NeverOverlong s) : NeverOverlong (wrap s) := by
  refine ⟨fun d => ∃ s, d = wrap s ∧ NeverOverlong s, ⟨?_, ?_, ?_⟩, s, rfl, h⟩
  · rintro _ n a d' ⟨s, rfl, hs⟩ hread
    rw [hwrap.read] at hread
    obtain ⟨s', hs', rfl⟩ := Device.eq_ok_of_embed hread
    obtain ⟨hlength, hkept⟩ := keptExactly_neverOverlong.answer hs hs'
    exact ⟨hlength, s', rfl, hkept⟩
  · rintro _ n e d' ⟨s, rfl, hs⟩ hread
    rw [hwrap.read] at hread
    obtain ⟨s', hs', rfl⟩ := Device.eq_error_of_embed hread
    exact ⟨s', rfl, keptExactly_neverOverlong.fault hs hs'⟩
  · rintro _ ⟨s, rfl, hs⟩
    rw [hwrap.close, Device.endState_embed]
    exact ⟨_, rfl, keptExactly_neverOverlong.close hs⟩

end PlacedText
