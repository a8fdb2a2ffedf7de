import PlacedText.Proofs.Reader.Refinement
import PlacedText.Proofs.Running.Keeping
import PlacedText.Session.Reader

/-!
# After a fault

A fault can meet a reader in three places of one call: when it asks for the end, while it gathers a
block, and when it looks for the line feed after a carriage return.  What had been taken in by then
is lost, but nothing of it is left behind either (`restarted_of_fault`): the reader is in the state
of a new one, with the same settings, on a new source around the same stream, which begins where the
failed block would have begun.

One fact carries this: a source that meets a fault has nothing looked at and is not exhausted
(`Source.Faulted`).  An exhausted source asks its stream no more, and a block is gathered only after
the lookahead was taken.
-/

namespace PlacedText

open Running

variable {σ α β : Type} [InputStream CodePoint σ] {n : Nat} {e : Fault} {s s' : Source σ}
  {r r' : Reader σ}

/-- The fault comes from a read, and the stream is as that read left it. -/
def ReadFailed (e : Fault) (stream : σ) : Prop :=
  ∃ n before, InputStream.read n before = .error e stream

namespace Source

/-- Two sources that are closed alike and have noted the same. -/
structure Beside (s s' : Source σ) : Prop where
  closed : s'.closed = s.closed
  journal : s'.journal = s.journal

/-- The source `s` has met a fault and has become `s'`. -/
structure Faulted (s : Source σ) (e : Fault) (s' : Source σ) : Prop extends Beside s s' where
  failed : ReadFailed e s'.stream
  exhausted : s'.exhausted = false
  lookahead : s'.lookahead = []

omit [InputStream CodePoint σ] in
theorem Beside.refl (s : Source σ) : Beside s s := ⟨rfl, rfl⟩

omit [InputStream CodePoint σ] in
theorem Beside.trans {s₁ : Source σ} (h : Beside s s₁) (h' : Beside s₁ s') : Beside s s' :=
  ⟨h'.closed.trans h.closed, h'.journal.trans h.journal⟩

theorem Faulted.of_beside {s₁ : Source σ} (h : Beside s s₁) (h' : Faulted s₁ e s') :
    Faulted s e s' :=
  ⟨h.trans h'.toBeside, h'.failed, h'.exhausted, h'.lookahead⟩

/-- What an action of a source can come to: it gives a value, or it meets a fault. -/
inductive Settles (s : Source σ) : EStateM.Result Fault (Source σ) α → Prop where
  | ok {a : α} {s' : Source σ} (beside : Beside s s') : Settles s (.ok a s')
  | error {e : Fault} {s' : Source σ} (faulted : Faulted s e s') : Settles s (.error e s')

/-- However it ends, the source is closed as before and has noted the same. -/
theorem Settles.beside {result : EStateM.Result Fault (Source σ) α} (h : Settles s result) :
    Beside s (endState result) := by
  cases h with
  | ok beside => exact beside
  | error faulted => exact faulted.toBeside

theorem Settles.beside_of_eq_ok {result : EStateM.Result Fault (Source σ) α} {a : α}
    (h : Settles s result) (hok : result = .ok a s') : Beside s s' := by
  subst hok
  exact h.beside

/-- An action after another one. -/
theorem Settles.bind {x : SourceM σ α} {f : α → SourceM σ β} (hx : Settles s (x s))
    (hf : ∀ a s₁, x s = .ok a s₁ → Settles s₁ (f a s₁)) : Settles s ((x >>= f) s) := by
  rw [bind_apply]
  cases hfirst : x s with
  | error e s₁ =>
    rw [hfirst] at hx
    cases hx with
    | error faulted => exact .error faulted
  | ok a s₁ =>
    rw [hfirst] at hx
    have hsecond : Settles s₁ (f a s₁) := hf a s₁ hfirst
    cases hx with
    | ok beside =>
      show Settles s (f a s₁)
      generalize f a s₁ = result at hsecond ⊢
      cases hsecond with
      | ok beside' => exact .ok (beside.trans beside')
      | error faulted => exact .error (faulted.of_beside beside)

/-! ### The actions of a source -/

/-- A source that looks at nothing pulls.  An exhausted one does not ask, so it meets no fault; and
what it looks at stays. -/
theorem pull_settles (hahead : s.lookahead = []) (n : Nat) :
    Settles s (pull n s) ∧ ∀ c s', pull n s = .ok c s' → s'.lookahead = [] := by
  cases hexhausted : s.exhausted with
  | true =>
    rw [pull_of_exhausted hexhausted]
    refine ⟨.ok (.refl s), ?_⟩
    rintro c s' ⟨⟩
    exact hahead
  | false =>
    cases hread : InputStream.read n s.stream with
    | ok a stream =>
      rw [pull_of_answer hexhausted hread]
      refine ⟨.ok ⟨rfl, rfl⟩, ?_⟩
      rintro c s' ⟨⟩
      exact hahead
    | error e stream =>
      rw [pull_of_fault hexhausted hread]
      refine ⟨.error ⟨⟨rfl, rfl⟩, ⟨n, s.stream, hread⟩, hexhausted, hahead⟩, ?_⟩
      rintro c s' ⟨⟩

theorem peek_settles (s : Source σ) : Settles s (peek s) := by
  by_cases hahead : s.lookahead = []
  · obtain ⟨hpull, -⟩ := pull_settles hahead 1
    rw [peek, bind_apply, get_apply]
    simp only [hahead, List.isEmpty_nil, ↓reduceIte]
    refine hpull.bind fun c s₁ _ => ?_
    exact .ok ⟨rfl, rfl⟩
  · rw [peek_of_lookahead hahead]
    exact .ok (.refl s)

theorem atEnd_settles (s : Source σ) : Settles s (atEnd s) :=
  (peek_settles s).bind fun _ s₁ _ => .ok (.refl s₁)

theorem gather_settles (hahead : s.lookahead = []) (n : Nat) (parts : List Text) :
    Settles s (gather n parts s) := by
  induction n using Nat.strongRecOn generalizing s parts with
  | ind n ih =>
  by_cases hn : n = 0
  · subst hn
    rw [gather_zero]
    exact .ok (.refl s)
  · obtain ⟨hpull, hkept⟩ := pull_settles hahead n
    rw [gather, dif_neg hn]
    refine hpull.bind fun c s₁ hc => ?_
    by_cases hnil : c = []
    · rw [dif_pos hnil]
      exact .ok (.refl s₁)
    · -- Less is wanted now, and the source still looks at nothing.
      have hlength : 0 < c.length := List.length_pos_iff.2 hnil
      rw [dif_neg hnil]
      exact ih (n - c.length) (by omega) (hkept c s₁ hc) (c :: parts)

theorem readUpTo_settles (s : Source σ) (n : Nat) : Settles s (readUpTo n s) := by
  by_cases hn : n = 0
  · rw [readUpTo, if_pos hn]
    exact .ok (.refl s)
  · have hpos : 0 < n := Nat.pos_of_ne_zero hn
    by_cases hahead : s.lookahead = []
    · rw [readUpTo_of_lookahead_nil hpos hahead]
      exact gather_settles hahead n []
    · -- The lookahead is taken first; a fault afterwards finds none, and it is lost.
      rw [readUpTo_of_lookahead hpos hahead]
      have hbeside : Beside s { s with lookahead := [] } := ⟨rfl, rfl⟩
      have hgather : Settles { s with lookahead := [] }
          (gather (n - 1) [s.lookahead] { s with lookahead := [] }) := gather_settles rfl _ _
      generalize gather (n - 1) [s.lookahead] { s with lookahead := [] } = result at hgather ⊢
      cases hgather with
      | ok beside => exact .ok (hbeside.trans beside)
      | error faulted => exact .error (faulted.of_beside hbeside)

theorem readBlock_settles (s : Source σ) (n : Nat) : Settles s (readBlock n s) := by
  refine (readUpTo_settles s n).bind fun block s₁ _ => ?_
  by_cases hreturn : block.getLast? = some .carriageReturn
  · rw [if_pos hreturn]
    refine (peek_settles s₁).bind fun shown s₂ _ => ?_
    by_cases hfeed : shown = [.lineFeed]
    · rw [if_pos hfeed]
      exact (readUpTo_settles s₂ 1).bind fun _ s₃ _ => .ok (.refl s₃)
    · rw [if_neg hfeed]
      exact .ok (.refl s₂)
  · rw [if_neg hreturn]
    exact .ok (.refl s₁)

end Source

namespace Reader

/-- A reader at the start of a source of which the first character stands at `place`. -/
def startingAt (source : Source σ) (settings : Settings) (place : Position) : Reader σ :=
  { ofSource source settings with next := place }

/-- The reader `r` has met a fault and has become `r'`. -/
structure Faulted (r : Reader σ) (e : Fault) (r' : Reader σ) : Prop where
  source : r.source.Faulted e r'.source
  settings : r'.settings = r.settings
  queue : r'.queue = []
  next : r'.next = r.next

/-- A reader that has met a fault is like a new one where the failed block would have begun. -/
theorem Faulted.eq_startingAt (h : r.Faulted e r') :
    r' = startingAt
      { stream := r'.source.stream, closed := r.source.closed, journal := r.source.journal }
      r.settings r.next := by
  obtain ⟨⟨stream, lookahead, exhausted, closed, journal⟩, settings, queue, next⟩ := r'
  obtain ⟨⟨⟨hclosed, hjournal⟩, -, hexhausted, hahead⟩, hsettings, hqueue, hnext⟩ := h
  dsimp only at hclosed hjournal hexhausted hahead hsettings hqueue hnext
  rw [hclosed, hjournal, hexhausted, hahead, hsettings, hqueue, hnext]
  rfl

/-- A fault of the source while nothing is queued. -/
theorem Faulted.of_source (hqueue : r.queue = []) (h : r.source.Faulted e s') :
    r.Faulted e { r with source := s' } := ⟨h, rfl, hqueue, rfl⟩

omit [InputStream CodePoint σ] in
/-- An action on the source fails as it does on the source alone. -/
theorem onSource_eq_error_iff {x : SourceM σ α} {failure : ReadError} :
    onSource x r = .error failure r' ↔
      ∃ e s', x r.source = .error e s' ∧ failure = .fault e ∧ r' = { r with source := s' } := by
  unfold onSource
  constructor
  · intro h
    cases hx : x r.source with
    | ok a s' => simp only [hx] at h; cases h
    | error e s' =>
      simp only [hx] at h
      cases h
      exact ⟨e, s', rfl, rfl, rfl⟩
  · rintro ⟨e, s', hx, rfl, rfl⟩
    rw [hx]

/-- A source that settles with a fault leaves a reader with nothing queued in such a state. -/
theorem faulted_of_settles {result : EStateM.Result Fault (Source σ) α}
    (hsettles : r.source.Settles result) (hqueue : r.queue = []) (h : result = .error e s') :
    r.Faulted e { r with source := s' } := by
  subst h
  cases hsettles with
  | error faulted => exact .of_source hqueue faulted

theorem faulted_of_atEnd (h : atEnd r = .error (.fault e) r') : r.Faulted e r' := by
  by_cases hqueue : r.queue = []
  · cases hend : Source.atEnd r.source with
    | ok ended s =>
      rw [atEnd_of_source hqueue hend] at h
      cases h
    | error e' s =>
      rw [atEnd_of_source_fault hqueue hend] at h
      cases h
      exact faulted_of_settles (Source.atEnd_settles r.source) hqueue hend
  · rw [atEnd_of_queue hqueue] at h
    cases h

/-- Only the gathering of the block can fail in a refill: what is queued and noted, and where the
next character stands, changes after it. -/
theorem faulted_of_refill (hqueue : r.queue = []) (h : refill r = .error (.fault e) r') :
    r.Faulted e r' := by
  cases hblock : Source.readBlock r.settings.blockSize r.source with
  | ok block s =>
    rw [refill_of_readBlock hblock] at h
    cases h
  | error e' s =>
    rw [refill_of_readBlock_fault hblock] at h
    cases h
    exact faulted_of_settles (Source.readBlock_settles r.source _) hqueue hblock

theorem faulted_of_precache (h : precache r = .error (.fault e) r') : r.Faulted e r' := by
  by_cases hqueue : r.queue = []
  · cases hend : Source.atEnd r.source with
    | error e' s =>
      rw [precache_of_source_fault hqueue hend] at h
      cases h
      exact faulted_of_settles (Source.atEnd_settles r.source) hqueue hend
    | ok ended s₁ =>
      cases ended with
      | true =>
        rw [precache_of_atEnd hqueue hend] at h
        cases h
      | false =>
        -- The look at the end has changed the source, but neither the journal nor the closing.
        rw [precache_of_not_atEnd hqueue hend] at h
        have hbeside := (Source.atEnd_settles r.source).beside_of_eq_ok hend
        have hrefill : Faulted { r with source := s₁ } e r' := faulted_of_refill hqueue h
        exact ⟨hrefill.source.of_beside hbeside, hrefill.settings, hrefill.queue, hrefill.next⟩
  · rw [precache_of_queue hqueue] at h
    cases h

/-- After the precaching, looking and reading meet no fault. -/
theorem precache_of_peek_fault (h : peek r = .error (.fault e) r') :
    precache r = .error (.fault e) r' := by
  cases hprecache : precache r with
  | error e' r₁ =>
    rw [peek_of_precache_error hprecache] at h
    cases h
    rfl
  | ok u r₁ =>
    rw [peek, bind_apply, hprecache] at h
    simp only [bind_apply, get_apply] at h
    cases hqueue : r₁.queue <;> simp only [hqueue] at h <;> cases h

theorem precache_of_read_fault (h : read r = .error (.fault e) r') :
    precache r = .error (.fault e) r' := by
  cases hprecache : precache r with
  | error e' r₁ =>
    rw [read_of_precache_error hprecache] at h
    cases h
    rfl
  | ok u r₁ =>
    rw [read, bind_apply, hprecache] at h
    simp only [bind_apply, get_apply] at h
    cases hqueue : r₁.queue <;> simp only [hqueue] at h <;> cases h

/-- A call of which the reply is an error has ended with it. -/
theorem eq_error_of_reply {τ β : Type} {value : β → Reply} (hvalue : ∀ b e, value b ≠ .failed e)
    {result : EStateM.Result ReadError τ β} {failure : ReadError}
    (h : (Call.reply value result).1 = .failed failure) :
    result = .error failure (Call.reply value result).2 := by
  cases result with
  | ok b t => exact absurd h (hvalue b failure)
  | error e' t =>
    cases h
    rfl

/-- **One call.**  A call that ends with a fault leaves the reader faulted. -/
theorem faulted_of_call {call : Call} (h : (call.onReader r).1 = .failed (.fault e)) :
    r.Faulted e (call.onReader r).2 := by
  cases call with
  | read => exact faulted_of_precache (precache_of_read_fault (eq_error_of_reply (by simp) h))
  | peek => exact faulted_of_precache (precache_of_peek_fault (eq_error_of_reply (by simp) h))
  | precache => exact faulted_of_precache (eq_error_of_reply (by simp) h)
  | atEnd => exact faulted_of_atEnd (eq_error_of_reply (by simp) h)

end Reader

/-- **A fault leaves a new reader.**  Let the stream be any stream, and the reader in any state.  If
a call meets a fault of the stream, nothing is queued or looked at afterwards, and the end has not
come; the next place, the settings, the journal and whether the source is closed are as before the
call.  So the reader goes on as a new one would: one with the same settings on a new source around
the stream as the failed read left it, closed or not as before, of which the first character stands
at the place where the failed block would have begun. -/
theorem restarted_of_fault {call : Call} (h : (call.onReader r).1 = .failed (.fault e)) :
    let r' := (call.onReader r).2
    ReadFailed e r'.source.stream ∧
      r'.queue = [] ∧ r'.source.lookahead = [] ∧ r'.source.exhausted = false ∧
      r'.next = r.next ∧ r'.source.closed = r.source.closed ∧
      r'.source.journal = r.source.journal ∧ r'.settings = r.settings ∧
      ∀ iterators steps,
        Session.run steps ({ reader := r', iterators } : ReaderSession σ) =
          Session.run steps
            { reader := .startingAt
                { stream := r'.source.stream
                  closed := r.source.closed
                  journal := r.source.journal }
                r.settings r.next
              iterators } := by
  intro r'
  have hfaulted : r.Faulted e r' := Reader.faulted_of_call h
  refine ⟨hfaulted.source.failed, hfaulted.queue, hfaulted.source.lookahead,
    hfaulted.source.exhausted, hfaulted.next, hfaulted.source.closed, hfaulted.source.journal,
    hfaulted.settings, fun iterators steps => ?_⟩
  rw [← hfaulted.eq_startingAt]

/-- The stream breaks when the source, closed already, looks for a line feed: the block is full
then, and a character that had been looked at is in it.  Both are lost, and the place is kept. -/
theorem restarted_of_fault_behind_block :
    let settings : Settings := { Settings.default with blockSize := 2, blockSize_pos := by decide }
    let stream : Script CodePoint :=
      { items := [.units (text "\r"), .fail (text "broken"), .units (text "cd")] }
    let r : Reader (Script CodePoint) :=
      { source := { stream, lookahead := text "a", closed := true, journal := {} }
        settings
        next := ⟨3, 1⟩ }
    let after : Script CodePoint := { items := [.units (text "cd")], requests := [1, 1] }
    (Call.read.onReader r).1 = .failed (.fault (.system (text "broken"))) ∧
      ∀ steps,
        Session.run steps ({ reader := (Call.read.onReader r).2 } : ReaderSession _) =
          Session.run steps
            { reader := .startingAt { stream := after, closed := true, journal := {} }
                settings ⟨3, 1⟩ } := by
  intro settings stream r after
  have hread : Source.readUpTo 2 r.source = .ok (text "a\r") { r.source with
      lookahead := []
      stream := { items := [.fail (text "broken"), .units (text "cd")], requests := [1] } } := by
    rw [Source.readUpTo_of_lookahead (by decide) (by decide),
      Source.gather_of_pull Nat.one_pos (Source.pull_of_answer rfl rfl) (by decide)]
    exact Source.gather_zero _ _
  have hblock : Source.readBlock 2 r.source = .error (.system (text "broken"))
      { stream := after, closed := true, journal := {} } := by
    rw [Source.readBlock, bind_apply, hread]
    rfl
  have hprecache : Reader.precache r = .error (.fault (.system (text "broken")))
      { r with source := { stream := after, closed := true, journal := {} } } := by
    rw [Reader.precache_of_not_atEnd rfl rfl, Reader.refill, bind_apply, get_apply]
    simp only [bind_apply]
    rw [Reader.onSource_eq_error_iff.2 ⟨_, _, hblock, rfl, rfl⟩]
  have hcall : Call.read.onReader r = (.failed (.fault (.system (text "broken"))),
      { r with source := { stream := after, closed := true, journal := {} } }) := by
    rw [Call.onReader, Reader.read_of_precache_error hprecache]
    rfl
  have hfault : (Call.read.onReader r).1 = .failed (.fault (.system (text "broken"))) := by
    rw [hcall]
  refine ⟨hfault, fun steps => ?_⟩
  obtain ⟨-, -, -, -, -, -, -, -, hrun⟩ := restarted_of_fault hfault
  rw [hrun, hcall]

end PlacedText
