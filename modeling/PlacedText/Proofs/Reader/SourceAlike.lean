import PlacedText.Proofs.Reader.Alike
import PlacedText.Proofs.Reader.Steps
import PlacedText.Proofs.Source.Alike

/-!
# Readers of sources that run alike

Two readers with the same settings, the same queue and the same next place run alike if their
sources do, up to a fault that stops the first one (`Reader.readUntil_over`).
-/

namespace PlacedText

open Running

variable {σ τ : Type} {limit : Nat} {F : Fault → Source σ → Prop} {R : Source σ → Source τ → Prop}

namespace Reader

/-- A fault and a source as in `F`, as an error and a reader. -/
def StopsOver (F : Fault → Source σ → Prop) (e : ReadError) (r : Reader σ) : Prop :=
  ∃ fault, e = .fault fault ∧ F fault r.source

/-- Two readers that are the same but for their sources, which are related. -/
structure AlikeOver (limit : Nat) (R : Source σ → Source τ → Prop) (r : Reader σ)
    (r' : Reader τ) : Prop where
  source : R r.source r'.source
  settings : r'.settings = r.settings
  queue : r'.queue = r.queue
  next : r'.next = r.next
  blockSize_le : r.settings.blockSize ≤ limit

variable {r : Reader σ} {r' : Reader τ}

theorem AlikeOver.limit_pos (h : r.AlikeOver limit R r') : 0 < limit :=
  Nat.lt_of_lt_of_le r.settings.blockSize_pos h.blockSize_le

/-- Actions on the sources that run alike do so as actions on the readers. -/
theorem AlikeOver.onSource {α : Type} {x : SourceM σ α} {y : SourceM τ α}
    (h : r.AlikeOver limit R r') (hxy : RunUntil F R x y) :
    ResultUntil (StopsOver F) (AlikeOver limit R) (Reader.onSource x r)
      (Reader.onSource y r') := by
  rw [Reader.onSource, Reader.onSource]
  rcases hxy h.source with ⟨e, source, hstopped, hF⟩ | halike
  · rw [hstopped]
    exact .inl ⟨.fault e, _, rfl, e, rfl, hF⟩
  · right
    generalize x r.source = result at halike ⊢
    generalize y r'.source = result' at halike ⊢
    cases halike with
    | ok hs => exact .ok ⟨hs, h.settings, h.queue, h.next, h.blockSize_le⟩
    | error hs => exact .error ⟨hs, h.settings, h.queue, h.next, h.blockSize_le⟩

variable [InputStream CodePoint σ] [InputStream CodePoint τ]

/-- Asking for the end gives the same. -/
theorem atEnd_until (hR : Source.PullsAlike limit F R) :
    RunUntil (StopsOver F) (AlikeOver limit R) atEnd atEnd := by
  intro r r' h
  rw [atEnd, atEnd, bind_apply, bind_apply, get_apply, get_apply]
  simp only [h.queue]
  cases r.queue.isEmpty with
  | true => exact h.onSource (hR.atEnd h.limit_pos)
  | false => exact .inr (.ok h)

/-- A refill takes in the same. -/
theorem refill_until (hR : Source.PullsAlike limit F R) :
    RunUntil (StopsOver F) (AlikeOver limit R) refill refill := by
  intro r r' h
  have hpos : 0 < r.settings.blockSize := r.settings.blockSize_pos
  rw [refill, refill, bind_apply, bind_apply, get_apply, get_apply]
  simp only [h.settings, h.next]
  refine (h.onSource (hR.readBlock hpos h.blockSize_le)).bind fun block r₁ r₁' h₁ => ?_
  -- What is left is to note and queue the block.
  refine .inr (.ok ⟨hR.note h₁.source _ _, h₁.settings, ?_, ?_, h₁.blockSize_le⟩)
  · show r₁'.queue ++ (place r₁'.next block).1 = r₁.queue ++ (place r₁.next block).1
    rw [h₁.queue, h₁.next]
  · show (place r₁'.next block).2 = (place r₁.next block).2
    rw [h₁.next]

/-- Taking in comes to the same. -/
theorem precache_until (hR : Source.PullsAlike limit F R) :
    RunUntil (StopsOver F) (AlikeOver limit R) precache precache := by
  intro r r' h
  rw [precache, precache, bind_apply, bind_apply, get_apply, get_apply]
  simp only [h.queue]
  cases r.queue.isEmpty with
  | false => exact .inr (.ok h)
  | true =>
    refine (h.onSource (hR.atEnd h.limit_pos)).bind fun ended r₁ r₁' h₁ => ?_
    cases ended with
    | false => exact refill_until hR h₁
    | true =>
      show ResultUntil _ _ (.error (ReadError.endOfData r₁.next) r₁)
        (.error (ReadError.endOfData r₁'.next) r₁')
      rw [h₁.next]
      exact .inr (.error h₁)

/-- **Readers of sources that run alike run alike**, until the first one meets a fault. -/
theorem readUntil_over (hR : Source.PullsAlike limit F R) :
    ReadUntil (StopsOver F) (AlikeOver limit R) where
  atEnd := atEnd_until hR
  precache := precache_until hR
  peek := by
    refine (precache_until hR).bind fun _ => ?_
    intro r r' h
    rw [bind_apply, bind_apply, get_apply, get_apply]
    simp only [h.queue]
    cases r.queue with
    | nil => exact .inr (.error h)
    | cons c queue => exact .inr (.ok h)
  read := by
    refine (precache_until hR).bind fun _ => ?_
    intro r r' h
    rw [bind_apply, bind_apply, get_apply, get_apply]
    simp only [h.queue]
    cases r.queue with
    | nil => exact .inr (.error h)
    | cons c queue => exact .inr (.ok ⟨h.source, h.settings, rfl, h.next, h.blockSize_le⟩)

end Reader

end PlacedText
