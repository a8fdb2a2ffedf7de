import PlacedText.Opening
import PlacedText.Proofs.Stream.Exact

/-!
# Streams that shut

A stream *refuses* if every read of it fails, and leaves it as it is: with the same fault each time,
but for sizes beyond the largest one.  It *shuts* if, whatever was read before, it refuses once it
is closed.

Memory shuts, and so do decoded bytes, whatever the stream of bytes is.  Hence the streams that are
opened on text or bytes in memory shut (`Origin.InMemory.shuts`).
-/

namespace PlacedText

open Running

variable {σ : Type} [InputStream CodePoint σ] {e : Fault}

/-- Every read fails with the fault `e`, unless it asks for too much. -/
def Refuses (e : Fault) (s : σ) : Prop :=
  ∀ n, InputStream.read n s = .error (if largestSize < n then .oversized else e) s

/-- A read that does not ask for too much. -/
theorem Refuses.read {s : σ} (h : Refuses e s) {n : Nat} (hn : n ≤ largestSize) :
    InputStream.read n s = .error e s := by
  rw [h n, if_neg (Nat.not_lt.2 hn)]

/-- A property of streams that reading, failing and closing keep, and with which closing makes a
stream refuse. -/
structure Shutting (e : Fault) (P : σ → Prop) : Prop where
  answer : ∀ ⦃s n a s'⦄, P s → InputStream.read n s = .ok a s' → P s'
  fault : ∀ ⦃s n e s'⦄, P s → InputStream.read n s = .error e s' → P s'
  close : ∀ ⦃s⦄, P s → P (endState (InputStream.close s))
  refuses : ∀ ⦃s⦄, P s → Refuses e (endState (InputStream.close s))

/-- The stream refuses once it is closed, whenever that is. -/
def Shuts (e : Fault) (s : σ) : Prop := ∃ P : σ → Prop, Shutting e P ∧ P s

/-- Shutting is itself kept. -/
theorem shutting_shuts : Shutting e (Shuts (σ := σ) e) where
  answer := by
    rintro s n a s' ⟨P, hP, hs⟩ hread
    exact ⟨P, hP, hP.answer hs hread⟩
  fault := by
    rintro s n e s' ⟨P, hP, hs⟩ hread
    exact ⟨P, hP, hP.fault hs hread⟩
  close := by
    rintro s ⟨P, hP, hs⟩
    exact ⟨P, hP, hP.close hs⟩
  refuses := by
    rintro s ⟨P, hP, hs⟩
    exact hP.refuses hs

/-! ### Memory and decoded bytes -/

/-- A memory refuses with its own fault. -/
theorem Memory.shuts (m : Memory CodePoint) : Shuts m.whenClosed m := by
  refine ⟨fun m' => m'.whenClosed = m.whenClosed, ⟨?_, ?_, ?_, ?_⟩, rfl⟩
  · intro s n a s' hs hread
    replace hread : read n s = .ok a s' := hread
    unfold read at hread
    split at hread
    · cases hread
    · split at hread
      · cases hread
      · cases hread
        exact hs
  · intro s n e s' hs hread
    replace hread : read n s = .error e s' := hread
    unfold read at hread
    split at hread
    · cases hread
      exact hs
    · split at hread
      · cases hread
        exact hs
      · cases hread
  · intro s hs
    exact hs
  · intro s hs n
    show read n { s with closed := true } =
      .error (if largestSize < n then .oversized else m.whenClosed) { s with closed := true }
    rw [read]
    split
    · rfl
    · rw [← hs]
      rfl

/-- Decoded bytes refuse as a closed stream of bytes does. -/
theorem Decoded.shuts {β : Type} [FiniteStream UInt8 β] (d : Decoded β) : Shuts .bytesClosed d := by
  refine ⟨fun _ => True, ⟨fun _ _ _ _ _ _ => trivial, fun _ _ _ _ _ _ => trivial,
    fun _ _ => trivial, fun d _ n => ?_⟩, trivial⟩
  have hclosed : (endState (close d)).closed = true := by
    rw [close]
    cases InputStream.close d.device <;> rfl
  show read n (endState (close d)) =
    .error (if largestSize < n then .oversized else .bytesClosed) (endState (close d))
  rw [read, if_pos hclosed]
  split <;> rfl

/-! ### Devices -/

/-- A device shuts as the stream that it wraps does. -/
theorem Shuts.device {wrap : σ → Device} (hwrap : Device.Wraps wrap) {s : σ} (h : Shuts e s) :
    Shuts e (wrap s) := by
  refine ⟨fun d => ∃ s, d = wrap s ∧ Shuts e s, ⟨?_, ?_, ?_, ?_⟩, s, rfl, h⟩
  · rintro _ n a d' ⟨s, rfl, hs⟩ hread
    rw [hwrap.read] at hread
    obtain ⟨s', hs', rfl⟩ := Device.eq_ok_of_embed hread
    exact ⟨s', rfl, shutting_shuts.answer hs hs'⟩
  · rintro _ n e' d' ⟨s, rfl, hs⟩ hread
    rw [hwrap.read] at hread
    obtain ⟨s', hs', rfl⟩ := Device.eq_error_of_embed hread
    exact ⟨s', rfl, shutting_shuts.fault hs hs'⟩
  · rintro _ ⟨s, rfl, hs⟩
    rw [hwrap.close, Device.endState_embed]
    exact ⟨_, rfl, shutting_shuts.close hs⟩
  · rintro _ ⟨s, rfl, hs⟩ n
    rw [hwrap.close, Device.endState_embed, hwrap.read, shutting_shuts.refuses hs n]
    rfl

/-- Text in memory and bytes in memory, each with the fault of a read after closing. -/
inductive Origin.InMemory : Origin → Fault → Prop where
  | text (t : Text) : InMemory (.text t) .textClosed
  | bytes (b : Bytes) : InMemory (.bytes b) .bytesClosed

/-- What is opened on text or bytes in memory gives no more than it is asked for, and shuts. -/
theorem Origin.InMemory.shuts {o : Origin} (h : o.InMemory e) {room : Nat} {l : Labels} {d : Device}
    (hopen : Device.open? room l o = .ok d) : NeverOverlong d ∧ Shuts e d := by
  cases h with
  | text t =>
    cases hopen
    exact ⟨(Memory.neverOverlong _).device Device.wraps_memory,
      (Memory.shuts (.ofText t)).device Device.wraps_memory⟩
  | bytes b =>
    rw [Device.open?] at hopen
    cases hdecoded : l.decoded (Memory.ofBytes b) with
    | error e =>
      rw [hdecoded] at hopen
      cases hopen
    | ok decoded =>
      rw [hdecoded] at hopen
      cases hopen
      exact ⟨(Decoded.neverOverlong decoded).device Device.wraps_bytes,
        (Decoded.shuts decoded).device Device.wraps_bytes⟩

end PlacedText
