import PlacedText.Proofs.Reader.Blocks
import PlacedText.Proofs.Session.Independence
import PlacedText.Proofs.Session.Meeting
import PlacedText.Proofs.Session.Trail

/-!
# What a session notes of its blocks

While the journal is kept, the refills that the reports show are those of the blocks taken in so
far, in their order and each noted once; and the place that a report shows is that of the first
character in no block yet (`BlockLog`).  A step may take in several blocks, one after the other, so
that the invariant is about the journal within a step (`Reader.Logged`), which asking, taking in and
taking out keep.

The main statement is `blocks_of_serves`.
-/

namespace PlacedText

variable {σ : Type} [InputStream CodePoint σ] {limit n : Nat} {t : Text} {noted : List Event}

/-- The events during the step. -/
def Report.events {ρ ν : Type} : Report ρ ν → List Event
  | .mk _ _ _ _ events => events

/-- The view after the step. -/
def Report.view {ρ ν : Type} : Report ρ ν → ν
  | .mk _ _ _ view _ => view

/-- What reports show as noted, in the order of the steps. -/
def notedIn {ρ ν : Type} (reports : List (Report ρ ν)) : List Event := reports.flatMap Report.events

/-- A step that does not stop the journal. -/
def Step.KeepsJournal {α : Type} : Step α → Bool
  | .record false => false
  | _ => true

/-- What was noted are the first refills of a text, and `place` is that of the first character in no
block yet. -/
structure BlockLog (n : Nat) (t : Text) (noted : List Event) (place : Position) : Prop where
  events : noted = (refillEvents n t).take noted.length
  place : place = t.placeAt (blockStart n t noted.length)

/-! ### Within a step -/

namespace Journal

variable {j : Journal}

theorem inOrder_note (h : j.recording = true) (e : Event) :
    (j.note e).inOrder = j.inOrder ++ [e] := by
  rw [note, if_pos h, inOrder, List.reverse_cons, inOrder]

theorem recording_note (j : Journal) (e : Event) : (j.note e).recording = j.recording := by
  rw [note]
  split <;> rfl

end Journal

namespace Reader

variable {r₀ r : Reader σ}

/-- A reader that keeps its journal.  Along some trail from `r₀` it has taken in as many blocks as
are noted, in the events `noted` of earlier steps and in its journal. -/
structure Logged (limit n : Nat) (t : Text) (noted : List Event) (r₀ r : Reader σ) : Prop where
  recording : r.source.journal.recording = true
  taken : ∃ k cs, Trail r₀ cs r ∧ r.TakenIn limit n t k cs ∧
    noted ++ r.source.journal.inOrder = (refillEvents n t).take k

/-- A reader at the start of a source has noted nothing. -/
theorem logged_ofSource {stream : σ} (hserves : Serves limit t stream) {settings : Settings}
    (hlimit : settings.blockSize ≤ limit) :
    let r := ofSource { stream, journal := { recording := true } } settings
    Logged limit settings.blockSize t [] r r :=
  ⟨rfl, 0, [], .stay _, takenIn_ofSource (Source.holds_of_serves hserves _) hlimit, rfl⟩

/-- **Within a step**, asking, taking in and taking out keep the log. -/
theorem bears_logged : Bears (Logged limit n t noted r₀) fun _ => True where
  ask := by
    rintro r ⟨hrecording, k, cs, htrail, htaken, hnoted⟩
    obtain ⟨htaken', hjournal⟩ := htaken.ask
    rw [← hjournal] at hrecording hnoted
    refine ⟨hrecording, k, cs, ?_, htaken', hnoted⟩
    rw [← List.append_nil cs]
    exact htrail.trans (.of_move (.ask r))
  fill := by
    rintro r ⟨hrecording, k, cs, htrail, htaken, hnoted⟩
    have htrail' : Trail r₀ cs (Running.endState (precache r)) := by
      rw [← List.append_nil cs]
      exact htrail.trans (.of_move (.fill r))
    have htakes := precache_of_takenIn htaken
    generalize precache r = result at htakes htrail' ⊢
    cases htakes with
    | stocked => exact ⟨hrecording, k, cs, htrail, htaken, hnoted⟩
    | block _ getElem? taken journal =>
      -- One more block, and one more event.
      refine ⟨?_, k + 1, cs, htrail', taken, ?_⟩
      · rw [Running.endState, journal, Journal.recording_note, hrecording]
      · rw [Running.endState, journal, Journal.inOrder_note hrecording, ← List.append_assoc, hnoted,
          take_refillEvents_succ getElem?]
    | ended _ _ taken journal =>
      rw [← journal] at hrecording hnoted
      exact ⟨hrecording, k, cs, htrail', taken, hnoted⟩
  take := by
    rintro r c queue ⟨hrecording, k, cs, htrail, htaken, hnoted⟩ hqueue
    exact ⟨hrecording, k, cs ++ [c], htrail.trans (.of_move (.take hqueue)), htaken.take hqueue,
      hnoted⟩
  fault _ _ _ _ _ := trivial

namespace Logged

/-- There are as many events as blocks. -/
theorem exists_takenIn (h : Logged limit n t noted r₀ r) :
    ∃ cs, Trail r₀ cs r ∧
      r.TakenIn limit n t (noted ++ r.source.journal.inOrder).length cs ∧
      noted ++ r.source.journal.inOrder =
        (refillEvents n t).take (noted ++ r.source.journal.inOrder).length := by
  obtain ⟨k, cs, htrail, htaken, hnoted⟩ := h.taken
  have hlength : (noted ++ r.source.journal.inOrder).length = k := by
    rw [hnoted, List.length_take, length_refillEvents, Nat.min_eq_left htaken.le_length]
  rw [hlength]
  exact ⟨cs, htrail, htaken, hnoted⟩

theorem blockLog (h : Logged limit n t noted r₀ r) :
    BlockLog n t (noted ++ r.source.journal.inOrder) r.next := by
  obtain ⟨cs, -, htaken, hnoted⟩ := h.exists_takenIn
  exact ⟨hnoted, htaken.next⟩

/-- Setting the journal keeps the log, if it forgets no event but those noted elsewhere. -/
theorem setJournal {noted' : List Event} (h : Logged limit n t noted r₀ r) {j : Journal}
    (hrecording : j.recording = true)
    (hnoted : noted' ++ j.inOrder = noted ++ r.source.journal.inOrder) :
    Logged limit n t noted' r₀ { r with source.journal := j } := by
  obtain ⟨k, cs, htrail, htaken, hevents⟩ := h.taken
  refine ⟨hrecording, k, cs, ?_, htaken.note j, hnoted.trans hevents⟩
  rw [← List.append_nil cs]
  exact htrail.trans (.of_move (.note r j))

end Logged

end Reader

/-! ### Steps and sessions -/

namespace Session

variable {r₀ : Reader σ} {s : ReaderSession σ}

/-- A report shows what was noted and goes on with an empty journal. -/
theorem report_logged (h : Reader.Logged limit n t noted r₀ s.reader) (result : Option ReaderResult)
    (block : Option (List (Report ReaderResult Position))) (failure : Option ReadError) :
    let done := report result block failure s
    BlockLog n t (noted ++ done.1.events) done.1.view ∧
      Reader.Logged limit n t (noted ++ done.1.events) r₀ done.2.reader ∧
      done.2.reader.source.journal.inOrder = [] :=
  ⟨h.blockLog, h.setJournal h.recording (List.append_nil _), rfl⟩

/-- **One step.** -/
theorem runStep_logged {step : Step ReaderAction} (hreads : step.OnlyReads)
    (hkeeps : step.KeepsJournal) (h : Reader.Logged limit n t noted r₀ s.reader)
    {done : Report ReaderResult Position × ReaderSession σ} (hrun : runStep step s = some done) :
    BlockLog n t (noted ++ done.1.events) done.1.view ∧
      Reader.Logged limit n t (noted ++ done.1.events) r₀ done.2.reader ∧
      done.2.reader.source.journal.inOrder = [] := by
  cases step with
  | act a =>
    obtain ⟨p, hp, rfl⟩ := runStep_act_eq_some_iff.1 hrun
    have hkept : Reader.Logged limit n t noted r₀ p.subject.reader :=
      ReaderSession.perform_keeps Reader.bears_logged hreads.1 h hp
    exact report_logged hkept _ _ _
  | within body => exact hreads.elim
  | record on =>
    cases on with
    | false => cases hkeeps
    | true =>
      obtain rfl := runStep_record_eq_some_iff.1 hrun
      have hset : Reader.Logged limit n t noted r₀ { s.reader with
          source.journal := s.reader.source.journal.setRecording true } := h.setJournal rfl rfl
      exact report_logged (s := { s with reader := _ }) hset none none none

/-- **All steps.**  At every report the log is that of the blocks taken in. -/
theorem run_logged {steps : List (Step ReaderAction)} (hreads : ∀ step ∈ steps, step.OnlyReads)
    (hkeeps : ∀ step ∈ steps, step.KeepsJournal) (h : Reader.Logged limit n t noted r₀ s.reader)
    {done : List (Report ReaderResult Position) × ReaderSession σ}
    (hrun : run steps s = some done) :
    (∀ (j : Nat) (report : Report ReaderResult Position), done.1[j]? = some report →
      BlockLog n t (noted ++ notedIn (done.1.take (j + 1))) report.view) ∧
      Reader.Logged limit n t (noted ++ notedIn done.1) r₀ done.2.reader ∧
      (s.reader.source.journal.inOrder = [] → done.2.reader.source.journal.inOrder = []) := by
  induction steps generalizing s noted done with
  | nil =>
    cases hrun
    refine ⟨(fun j report hj => by cases hj), ?_, id⟩
    rw [notedIn, List.flatMap_nil, List.append_nil]
    exact h
  | cons step steps ih =>
    obtain ⟨first, rest, hfirst, hrest, rfl⟩ := run_cons_eq_some_iff.1 hrun
    obtain ⟨hread, hreads⟩ := List.forall_mem_cons.1 hreads
    obtain ⟨hkeep, hkeeps⟩ := List.forall_mem_cons.1 hkeeps
    obtain ⟨hlog, hlogged, hcleared⟩ := runStep_logged hread hkeep h hfirst
    obtain ⟨hlogs, hlogged', hcleared'⟩ := ih hreads hkeeps hlogged hrest
    rw [List.append_assoc] at hlogged'
    refine ⟨fun j report hj => ?_, hlogged', fun _ => hcleared' hcleared⟩
    cases j with
    | zero =>
      cases hj
      rw [notedIn, List.take_succ_cons, List.take_zero, List.flatMap_singleton]
      exact hlog
    | succ j =>
      have hlater := hlogs j report hj
      rw [List.append_assoc] at hlater
      exact hlater

end Session

/-! ### Blocks -/

/-- **A reader takes in the blocks of its text.**  Let a stream serve the text `t`, in whatever
pieces, and let `n` be the block size.  The blocks of `t` are `n` characters each, or all that are
left, and one more where that keeps a carriage return and the line feed after it together.

Wherever a reader of the stream has got to without being closed, it has taken in the first `k`
blocks: what was taken out and what is queued are their characters, and its next place is that of
the first character in no block yet.  With nothing queued, taking in takes the block of index `k`
and notes its length and this place; or, if there is none, it is an error that names this place.

A session that only reads and keeps its journal ends.  The refills noted up to any report are those
of the first blocks, each noted once and in order, and the report shows the place of the first
character in no block yet.  What the session has taken out and what is queued after it are the
characters of the blocks noted. -/
theorem blocks_of_serves {stream : σ} (hserves : Serves limit t stream) {settings : Settings}
    (hlimit : settings.blockSize ≤ limit) :
    let n := settings.blockSize
    (∀ (journal : Journal) ⦃cs r⦄,
      Reader.Trail (Reader.ofSource { stream, journal } settings) cs r → r.source.closed = false →
        ∃ k ≤ (blocks n t).length,
          cs ++ r.queue = (place .start t).1.take (blockStart n t k) ∧
          r.next = t.placeAt (blockStart n t k) ∧
          (r.queue = [] → ∀ block, (blocks n t)[k]? = some block →
            ∃ r', Reader.precache r = .ok () r' ∧
              cs ++ r'.queue = (place .start t).1.take (blockStart n t (k + 1)) ∧
              r'.next = t.placeAt (blockStart n t (k + 1)) ∧
              r'.source.journal = r.source.journal.note (.refill block.length r.next)) ∧
          (r.queue = [] → (blocks n t)[k]? = none →
            ∃ r', Reader.precache r = .error (.endOfData r.next) r' ∧
              r'.queue = [] ∧ r'.next = r.next ∧ r'.source.journal = r.source.journal)) ∧
    ∀ (steps : List (Step ReaderAction)), (∀ step ∈ steps, step.OnlyReads) →
      (∀ step ∈ steps, step.KeepsJournal) →
      let start := ReaderSession.start stream settings { recording := true }
      ∃ done, Session.run steps start = some done ∧
        (∀ (j : Nat) (report : Report ReaderResult Position), done.1[j]? = some report →
          BlockLog n t (notedIn (done.1.take (j + 1))) report.view) ∧
        ∃ cs, Reader.Trail start.reader cs done.2.reader ∧
          cs ++ done.2.reader.queue =
            (place .start t).1.take (blockStart n t (notedIn done.1).length) := by
  intro n
  refine ⟨fun journal cs r htrail hopen => ?_, fun steps hreads hkeeps => ?_⟩
  · have hstart := Reader.takenIn_ofSource (Source.holds_of_serves hserves journal) hlimit
    obtain ⟨k, htaken⟩ : ∃ k, r.TakenIn limit n t k cs :=
      (Reader.follows_takenIn limit n t).trail htrail hopen ⟨0, hstart⟩
    refine ⟨k, htaken.le_length, htaken.chars, htaken.next, fun hqueue block hblock => ?_,
      fun hqueue hnone => ?_⟩
    · have htakes := Reader.precache_of_takenIn htaken
      generalize Reader.precache r = result at htakes ⊢
      cases htakes with
      | stocked hne => exact absurd hqueue hne
      | @block block' r' _ getElem? taken journal =>
        obtain rfl : block = block' := Option.some.inj (hblock.symm.trans getElem?)
        rw [← htaken.next] at journal
        exact ⟨r', rfl, taken.chars, taken.next, journal⟩
      | ended _ length =>
        rw [length, List.getElem?_eq_none (Nat.le_refl _)] at hblock
        cases hblock
    · have htakes := Reader.precache_of_takenIn htaken
      generalize Reader.precache r = result at htakes ⊢
      cases htakes with
      | stocked hne => exact absurd hqueue hne
      | block _ getElem? =>
        rw [hnone] at getElem?
        cases getElem?
      | @ended r' _ _ taken journal =>
        refine ⟨r', rfl, ?_, taken.next.trans htaken.next.symm, journal⟩
        have hqueue' := taken.chars.trans htaken.chars.symm
        rw [hqueue] at hqueue'
        exact List.append_cancel_left hqueue'
  · intro start
    obtain ⟨done, hrun⟩ := Session.run_ends_of_serves hserves hlimit { recording := true } hreads
    have hstart : Reader.Logged limit n t [] start.reader start.reader :=
      Reader.logged_ofSource hserves hlimit
    obtain ⟨hlogs, hlogged, hcleared⟩ := Session.run_logged hreads hkeeps hstart hrun
    obtain ⟨cs, htrail, htaken, -⟩ := hlogged.exists_takenIn
    rw [hcleared rfl, List.append_nil] at htaken
    exact ⟨done, hrun, hlogs, cs, htrail, htaken.chars⟩

/-- The stream cuts a pair of carriage return and line feed apart, and so would the block size; the
last block is a lone carriage return. -/
theorem blocks_of_serves_torn_pair :
    let pieces : List Text := [text "a\r", text "\n\r"]
    let ending : List (ScriptItem CodePoint) := [.notReady, .units (text "x")]
    let stream : Script CodePoint := { items := pieces.map .units ++ ending }
    let settings : Settings := { Settings.default with blockSize := 2, blockSize_pos := by decide }
    let t : Text := text "a\r\n\r"
    let reader := Reader.ofSource { stream, journal := {} } settings
    let steps : List (Step ReaderAction) :=
      [.act .peek, .act (.keep (text "line") (.characters .inLine)), .record true,
        .act (.advance (text "line") 4), .act .precache, .act .lines]
    Serves 2 t stream ∧ settings.blockSize ≤ 2 ∧
      (∀ step ∈ steps, step.OnlyReads) ∧ (∀ step ∈ steps, step.KeepsJournal) ∧
      blocks 2 t = [text "a\r\n", text "\r"] ∧
      refillEvents 2 t = [.refill 3 ⟨0, 0⟩, .refill 1 ⟨1, 0⟩] ∧
      (∃ k ≤ (blocks 2 t).length,
        (Running.endState (Reader.precache reader)).next = t.placeAt (blockStart 2 t k)) ∧
      ∃ done,
        Session.run steps (ReaderSession.start stream settings { recording := true }) = some done ∧
        ∀ (j : Nat) (report : Report ReaderResult Position), done.1[j]? = some report →
          BlockLog 2 t (notedIn (done.1.take (j + 1))) report.view := by
  intro pieces ending stream settings t reader steps
  have hserves : Serves 2 t stream :=
    @Script.serves_pieces 2 pieces ending (by decide) (.notReady _)
  have hlimit : settings.blockSize ≤ 2 := Nat.le_refl 2
  have hreads : ∀ step ∈ steps, step.OnlyReads := by decide
  have hkeeps : ∀ step ∈ steps, step.KeepsJournal := by decide
  have hblocks : blocks 2 t = [text "a\r\n", text "\r"] := by
    rw [blocks_of_ne_nil (by decide) (by decide), blocks_of_ne_nil (by decide) (by decide)]
    have hrest :
        (t.drop (blockLength 2 t)).drop (blockLength 2 (t.drop (blockLength 2 t))) = [] := by
      decide
    rw [hrest, blocks_nil]
    decide
  have hevents : refillEvents 2 t = [.refill 3 ⟨0, 0⟩, .refill 1 ⟨1, 0⟩] := by
    simp only [refillEvents, blockStart, hblocks]
    decide
  obtain ⟨hreader, hsession⟩ := blocks_of_serves hserves hlimit
  refine ⟨hserves, hlimit, hreads, hkeeps, hblocks, hevents, ?_, ?_⟩
  · obtain ⟨k, hk, -, hnext, -⟩ :=
      hreader {} (.of_move (.fill reader)) ((Reader.bears_closed false).fill rfl)
    exact ⟨k, hk, hnext⟩
  · obtain ⟨done, hrun, hlogs, -⟩ := hsession steps hreads hkeeps
    exact ⟨done, hrun, hlogs⟩

end PlacedText
