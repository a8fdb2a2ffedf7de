import PlacedText.Proofs.Reader.Meeting

/-!
# Looking does not count

Asking for the end, taking in and looking only do earlier what the next reading would have done:
they ask the stream the same questions in the same order.  So the state to compare is the one that a
reader is in once it has taken in (`Reader.settled`): none of these calls changes it, and what every
call comes to is told by it.  Two readers are alike here if these states are the same up to their
journals (`Reader.LooksAlike`).

This is about readers that meet no fault, `Reader.Sound`; the answers of the stream may be longer
than what was asked for.  After a fault a reader has lost what was looked at, so that it matters
when it was met.
-/

namespace PlacedText

open Running

variable {σ : Type} [InputStream CodePoint σ] {limit : Nat} {c : PlacedChar}
  {queue : List PlacedChar}

/-! ### The journal has no part -/

namespace Source

omit [InputStream CodePoint σ] in
/-- Two sources that differ in their journals only. -/
structure SameButJournal (s s' : Source σ) : Prop where
  stream : s'.stream = s.stream
  lookahead : s'.lookahead = s.lookahead
  exhausted : s'.exhausted = s.exhausted
  closed : s'.closed = s.closed

theorem pull_sameButJournal (n : Nat) :
    RunAlike (SameButJournal (σ := σ)) (pull n) (pull n) := by
  intro s s' h
  cases hexhausted : s.exhausted with
  | true =>
    rw [pull_of_exhausted hexhausted, pull_of_exhausted (h.exhausted.trans hexhausted)]
    exact .ok h
  | false =>
    have hexhausted' : s'.exhausted = false := h.exhausted.trans hexhausted
    cases hread : InputStream.read n s.stream with
    | ok a stream =>
      rw [pull_of_answer hexhausted hread, pull_of_answer hexhausted' (by rw [h.stream, hread])]
      exact .ok ⟨rfl, h.lookahead, rfl, h.closed⟩
    | error e stream =>
      rw [pull_of_fault hexhausted hread, pull_of_fault hexhausted' (by rw [h.stream, hread])]
      exact .error ⟨rfl, h.lookahead, h.exhausted, h.closed⟩

theorem pullsAlike_sameButJournal :
    PullsAlike limit (fun _ _ => False) (SameButJournal (σ := σ)) where
  lookahead _ _ h := h.lookahead
  look _ _ h _ := ⟨h.stream, rfl, h.exhausted, h.closed⟩
  note _ _ h _ _ := ⟨h.stream, h.lookahead, h.exhausted, h.closed⟩
  pull n _ _ := (pull_sameButJournal n).until

end Source

namespace Reader

variable {r r' r₁ : Reader σ}

/-! ### Readers that meet no fault -/

/-- A reader of a stream that does not fail: some account of what it got out of it can be given. -/
def Sound (limit : Nat) (r : Reader σ) : Prop :=
  ∃ origin xs handed, r.Delivered limit origin xs handed

theorem sound_ofSource {stream : σ} (h : Faultless limit stream) {settings : Settings}
    (hlimit : settings.blockSize ≤ limit) (journal : Journal) :
    (ofSource { stream, journal } settings).Sound limit :=
  ⟨_, _, _, delivered_ofSource h hlimit journal⟩

theorem Sound.of_journal (h : r.Sound limit) (j : Journal) :
    Sound limit { r with source.journal := j } := by
  obtain ⟨origin, xs, handed, h⟩ := h
  exact ⟨origin, xs, handed, h.of_journal j⟩

theorem Sound.blockSize_le (h : r.Sound limit) : r.settings.blockSize ≤ limit := by
  obtain ⟨_, _, _, h⟩ := h
  exact h.blockSize_le

/-- Asking a sound reader for the end gives an answer. -/
theorem Sound.atEnd (h : r.Sound limit) :
    ∃ ended r', Reader.atEnd r = .ok ended r' ∧ r'.Sound limit := by
  obtain ⟨origin, xs, handed, h⟩ := h
  obtain ⟨ended, xs', r', hend, -, hr', -⟩ := atEnd_of_delivered h
  exact ⟨ended, r', hend, origin, xs', handed, hr'⟩

/-- A sound reader stays sound, and meets no fault. -/
theorem bears_sound : Bears (Sound (σ := σ) limit) fun _ => False where
  ask r h := by
    obtain ⟨ended, r', hend, hr'⟩ := h.atEnd
    rw [hend]
    exact hr'
  fill r h := by
    obtain ⟨origin, xs, handed, h⟩ := h
    rcases precache_of_delivered h with ⟨xs', r', -, hr', ⟨hok, -⟩ | ⟨-, e, herror⟩⟩
    · rw [hok]
      exact ⟨origin, xs', handed, hr'⟩
    · rw [herror]
      exact ⟨origin, xs', handed, hr'⟩
  take r c queue h hqueue := by
    obtain ⟨origin, xs, handed, h⟩ := h
    exact ⟨origin, xs, handed ++ [c], h.take hqueue⟩
  fault r e r' h hfault := by
    -- Asking for the end gives an answer, and neither answer leaves room for a fault.
    obtain ⟨ended, r₁, hend, origin, xs, handed, hr₁⟩ := h.atEnd
    cases r.prospect with
    | ended _ hprecache => rw [hfault] at hprecache; cases hprecache
    | supplied _ hprecache _ => rw [hfault] at hprecache; cases hprecache
    | failing hatEnd _ =>
      cases ended with
      | true => exact hatEnd r₁ hend
      | false =>
        rw [← precache_of_atEnd_ok hend] at hfault
        rcases precache_of_delivered hr₁ with ⟨-, r₂, -, -, ⟨hok, -⟩ | ⟨hbare, -⟩⟩
        · rw [hfault] at hok
          cases hok
        · exact hbare (stocked_of_atEnd hend)

/-! ### Readers that have taken in -/

/-- A reader after taking in, if there was something to take in. -/
def settled (r : Reader σ) : Reader σ := endState (precache r)

theorem settled_of_precache_error {e : ReadError} (h : precache r = .error e r') :
    r.settled = r' := by rw [settled, h, endState]

theorem settled_of_precache (h : precache r = .ok () r') : r.settled = r' := by
  rw [settled, h, endState]

/-- A sound reader has one of two prospects: the data has ended, or a character can be had. -/
theorem prospect_of_sound (h : r.Sound limit) :
    (atEnd r = .ok true r.settled ∧ precache r = .error (.endOfData r.next) r.settled ∧
        r.settled.Over r.next) ∨
      ∃ r₁ c queue, atEnd r = .ok false r₁ ∧ precache r = .ok () r.settled ∧
        r.settled.queue = c :: queue := by
  cases r.prospect with
  | ended hend hprecache =>
    rw [settled_of_precache_error hprecache]
    exact .inl ⟨hend, hprecache, over_of_atEnd hend⟩
  | supplied hend hprecache hqueue =>
    rw [settled_of_precache hprecache]
    exact .inr ⟨_, _, _, hend, hprecache, hqueue⟩
  | failing _ hprecache => exact (bears_sound.fault h hprecache).elim

/-- Nothing is gained by taking in once more. -/
theorem settled_settled (h : r.Sound limit) : r.settled.settled = r.settled := by
  rcases prospect_of_sound h with ⟨-, -, hover⟩ | ⟨r₁, c, queue, -, -, hqueue⟩
  · -- The data has ended, and stays ended.
    exact settled_of_precache_error hover.endsAt.precache
  · exact settled_of_precache (precache_of_queue_cons hqueue)

/-- Asking for the end is told by it as well, and does not change what taking in would lead to. -/
theorem atEnd_of_sound (h : r.Sound limit) :
    ∃ r', atEnd r = .ok r.settled.queue.isEmpty r' ∧ r'.Sound limit ∧ r'.settled = r.settled := by
  obtain ⟨ended, r', hend, hr'⟩ := h.atEnd
  refine ⟨r', ?_, hr', by rw [settled, settled, precache_of_atEnd_ok hend]⟩
  rcases prospect_of_sound h with ⟨hended, -, hover⟩ | ⟨r₁, c, queue, hended, -, hqueue⟩
  · rw [hend] at hended
    cases hended
    rw [hend, hover.queue, List.isEmpty_nil]
  · rw [hend] at hended
    cases hended
    rw [hend, hqueue, List.isEmpty_cons]

/-! ### Readers that look alike -/

/-- Two readers that will be in the same state, up to their journals, once both have taken in. -/
structure LooksAlike (limit : Nat) (r r' : Reader σ) : Prop where
  sound : r.Sound limit
  sound' : r'.Sound limit
  settled : AlikeOver limit Source.SameButJournal r.settled r'.settled

omit [InputStream CodePoint σ] in
theorem AlikeOver.trans_journal (h : AlikeOver limit Source.SameButJournal r r₁)
    (h' : AlikeOver limit Source.SameButJournal r₁ r') :
    AlikeOver limit Source.SameButJournal r r' where
  source := ⟨h'.source.stream.trans h.source.stream, h'.source.lookahead.trans h.source.lookahead,
    h'.source.exhausted.trans h.source.exhausted, h'.source.closed.trans h.source.closed⟩
  settings := h'.settings.trans h.settings
  queue := h'.queue.trans h.queue
  next := h'.next.trans h.next
  blockSize_le := h.blockSize_le

omit [InputStream CodePoint σ] in
theorem AlikeOver.symm_journal (h : AlikeOver limit Source.SameButJournal r r') :
    AlikeOver limit Source.SameButJournal r' r where
  source := ⟨h.source.stream.symm, h.source.lookahead.symm, h.source.exhausted.symm,
    h.source.closed.symm⟩
  settings := h.settings.symm
  queue := h.queue.symm
  next := h.next.symm
  blockSize_le := by rw [h.settings]; exact h.blockSize_le

omit [InputStream CodePoint σ] in
theorem alikeOver_setJournal (hlimit : r.settings.blockSize ≤ limit) (j j' : Journal) :
    AlikeOver limit Source.SameButJournal { r with source.journal := j }
      { r with source.journal := j' } :=
  ⟨⟨rfl, rfl, rfl, rfl⟩, rfl, rfl, rfl, hlimit⟩

/-- Readers that differ in their journals only still do so after taking in. -/
theorem AlikeOver.settled (h : AlikeOver limit Source.SameButJournal r r') :
    AlikeOver limit Source.SameButJournal r.settled r'.settled := by
  unfold Reader.settled
  rcases precache_until Source.pullsAlike_sameButJournal h with ⟨-, -, -, -, -, hfalse⟩ | halike
  · exact hfalse.elim
  · generalize precache r = result at halike ⊢
    generalize precache r' = result' at halike ⊢
    cases halike with
    | ok h' => exact h'
    | error h' => exact h'

namespace LooksAlike

/-- A sound reader looks like one that will be in the same state. -/
theorem of_settled_eq (h : r.LooksAlike limit r') (hr₁ : r₁.Sound limit)
    (hsettled : r₁.settled = r.settled) : r₁.LooksAlike limit r' :=
  ⟨hr₁, h.sound', by rw [hsettled]; exact h.settled⟩

theorem refl (h : r.Sound limit) : r.LooksAlike limit r :=
  ⟨h, h, ⟨⟨rfl, rfl, rfl, rfl⟩, rfl, rfl, rfl, (bears_sound.fill h).blockSize_le⟩⟩

theorem symm (h : r.LooksAlike limit r') : r'.LooksAlike limit r :=
  ⟨h.sound', h.sound, h.settled.symm_journal⟩

/-- Taking in leaves readers alike. -/
theorem settle (h : r.LooksAlike limit r') : r.settled.LooksAlike limit r'.settled := by
  refine ⟨bears_sound.fill h.sound, bears_sound.fill h.sound', ?_⟩
  rw [settled_settled h.sound, settled_settled h.sound']
  exact h.settled

/-- So does taking the same character out. -/
theorem take (h : r.LooksAlike limit r') (hqueue : r.settled.queue = c :: queue) :
    LooksAlike limit { r.settled with queue } { r'.settled with queue } := by
  have hqueue' : r'.settled.queue = c :: queue := h.settled.queue.trans hqueue
  have halike : AlikeOver limit Source.SameButJournal { r.settled with queue }
      { r'.settled with queue } :=
    ⟨h.settled.source, h.settled.settings, rfl, h.settled.next, h.settled.blockSize_le⟩
  exact ⟨bears_sound.take (bears_sound.fill h.sound) hqueue,
    bears_sound.take (bears_sound.fill h.sound') hqueue', halike.settled⟩

/-- The journals have no part in it. -/
theorem of_journal (h : r.LooksAlike limit r') (j j' : Journal) :
    LooksAlike limit { r with source.journal := j } { r' with source.journal := j' } := by
  refine ⟨h.sound.of_journal j, h.sound'.of_journal j', ?_⟩
  have hbefore := (alikeOver_setJournal h.sound.blockSize_le j r.source.journal).settled
  have hbehind := (alikeOver_setJournal h.sound'.blockSize_le r'.source.journal j').settled
  exact (hbefore.trans_journal h.settled).trans_journal hbehind

/-- Readers that look alike have the same in prospect: the end, or the same character. -/
theorem prospects (h : r.LooksAlike limit r') :
    (∃ place, precache r = .error (.endOfData place) r.settled ∧
        precache r' = .error (.endOfData place) r'.settled) ∨
      ∃ c queue, precache r = .ok () r.settled ∧ precache r' = .ok () r'.settled ∧
        r.settled.queue = c :: queue ∧ r'.settled.queue = c :: queue := by
  have hqueues : r'.settled.queue = r.settled.queue := h.settled.queue
  rcases prospect_of_sound h.sound with ⟨-, hended, hover⟩ | ⟨_, c, queue, -, hsupplied, hqueue⟩
  · rcases prospect_of_sound h.sound' with ⟨-, hended', hover'⟩ | ⟨_, c', queue', -, -, hqueue'⟩
    · have hnext : r'.next = r.next := by rw [← hover.next, ← hover'.next, h.settled.next]
      rw [hnext] at hended'
      exact .inl ⟨_, hended, hended'⟩
    · rw [hqueues, hover.queue] at hqueue'
      cases hqueue'
  · rcases prospect_of_sound h.sound' with ⟨-, -, hover'⟩ | ⟨_, _, _, -, hsupplied', -⟩
    · rw [← hqueues, hover'.queue] at hqueue
      cases hqueue
    · exact .inr ⟨c, queue, hsupplied, hsupplied', hqueue, hqueues.trans hqueue⟩

end LooksAlike

/-- **Readers that look alike run alike.**  What a call comes to is told by the reader after taking
in. -/
theorem readAlike_looksAlike : ReadAlike (LooksAlike (σ := σ) limit) where
  atEnd := by
    intro r r' h
    obtain ⟨r₁, hend, hr₁, hsettled⟩ := atEnd_of_sound h.sound
    obtain ⟨r₁', hend', hr₁', hsettled'⟩ := atEnd_of_sound h.sound'
    rw [hend, hend', h.settled.queue]
    exact .ok ((h.of_settled_eq hr₁ hsettled).symm.of_settled_eq hr₁' hsettled').symm
  precache := by
    intro r r' h
    rcases h.prospects with ⟨place, hended, hended'⟩ | ⟨c, queue, hsupplied, hsupplied', -, -⟩
    · rw [hended, hended']
      exact .error h.settle
    · rw [hsupplied, hsupplied']
      exact .ok h.settle
  peek := by
    intro r r' h
    rcases h.prospects with
      ⟨place, hended, hended'⟩ | ⟨c, queue, hsupplied, hsupplied', hqueue, hqueue'⟩
    · rw [peek_of_precache_error hended, peek_of_precache_error hended']
      exact .error h.settle
    · rw [peek_of_precache hsupplied hqueue, peek_of_precache hsupplied' hqueue']
      exact .ok h.settle
  read := by
    intro r r' h
    rcases h.prospects with
      ⟨place, hended, hended'⟩ | ⟨c, queue, hsupplied, hsupplied', hqueue, hqueue'⟩
    · rw [read_of_precache_error hended, read_of_precache_error hended']
      exact .error h.settle
    · rw [read_of_precache hsupplied hqueue, read_of_precache hsupplied' hqueue']
      exact .ok (h.take hqueue)

end Reader

end PlacedText
