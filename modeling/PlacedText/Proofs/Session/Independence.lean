import PlacedText.Proofs.Reader.Remaining
import PlacedText.Proofs.Session.Alike
import PlacedText.Proofs.Session.Ending

/-!
# Blocks and pieces do not show

Two readers are at the same place if they have the same characters still to hand out and the same
place behind them.  What they have queued, looked at or still to ask for may differ.  The elementary
actions of such readers run alike (`readAlike_samePlace`), so whole sessions on them do.

A session on streams that serve the same text therefore has the same outcome whatever the block size
and however the streams cut the text (`outcomes_eq_of_serves`).  That it has one at all is known
from the text in memory, which is a finite stream.
-/

namespace PlacedText

variable {σ τ : Type} [InputStream CodePoint σ] [InputStream CodePoint τ] {limit limit' : Nat}

/-- Two readers that have the same characters to hand out. -/
def Reader.SamePlace (limit limit' : Nat) (r : Reader σ) (r' : Reader τ) : Prop :=
  ∃ ps e, r.Remains limit ps e ∧ r'.Remains limit' ps e

theorem journalFree_samePlace :
    JournalFree (Reader.SamePlace (σ := σ) (τ := τ) limit limit') := by
  rintro r r' ⟨ps, e, h, h'⟩ j j'
  exact ⟨ps, e, h.of_journal j, h'.of_journal j'⟩

/-- An action of which the end is told by what remains runs alike on readers at the same place: it
comes to the same if something remains, and to the same error if nothing does. -/
theorem runAlike_of_remains {α : Type} {x : ReaderM σ α} {y : ReaderM τ α}
    (hmore : ∀ c ps e, ∃ a left,
      (∀ r, Reader.Remains limit (c :: ps) e r → ∃ s, x r = .ok a s ∧ s.Remains limit left e) ∧
      ∀ r, Reader.Remains limit' (c :: ps) e r → ∃ s, y r = .ok a s ∧ s.Remains limit' left e)
    (hover : ∀ e, ∃ failure,
      (∀ r, Reader.Remains limit [] e r → ∃ s, x r = .error failure s ∧ s.Remains limit [] e) ∧
      ∀ r, Reader.Remains limit' [] e r → ∃ s, y r = .error failure s ∧ s.Remains limit' [] e) :
    RunAlike (Reader.SamePlace limit limit') x y := by
  rintro r r' ⟨ps, e, h, h'⟩
  cases ps with
  | nil =>
    obtain ⟨failure, hx, hy⟩ := hover e
    obtain ⟨s, hs, hremains⟩ := hx r h
    obtain ⟨s', hs', hremains'⟩ := hy r' h'
    rw [hs, hs']
    exact .error ⟨[], e, hremains, hremains'⟩
  | cons c ps =>
    obtain ⟨a, left, hx, hy⟩ := hmore c ps e
    obtain ⟨s, hs, hremains⟩ := hx r h
    obtain ⟨s', hs', hremains'⟩ := hy r' h'
    rw [hs, hs']
    exact .ok ⟨left, e, hremains, hremains'⟩

/-- Readers at the same place run alike. -/
theorem readAlike_samePlace : ReadAlike (Reader.SamePlace (σ := σ) (τ := τ) limit limit') where
  atEnd := by
    rintro r r' ⟨ps, e, h, h'⟩
    obtain ⟨s, hend, hs, -⟩ := Reader.atEnd_of_remains h
    obtain ⟨s', hend', hs', -⟩ := Reader.atEnd_of_remains h'
    rw [hend, hend']
    exact .ok ⟨ps, e, hs, hs'⟩
  precache := by
    apply runAlike_of_remains
    · intro c ps e
      refine ⟨(), c :: ps, fun r h => ?_, fun r h => ?_⟩
      · obtain ⟨s, hs, hremains, -⟩ := Reader.precache_of_remains h (List.cons_ne_nil c ps)
        exact ⟨s, hs, hremains⟩
      · obtain ⟨s, hs, hremains, -⟩ := Reader.precache_of_remains h (List.cons_ne_nil c ps)
        exact ⟨s, hs, hremains⟩
    · intro e
      exact ⟨_, fun r => Reader.precache_of_remains_nil, fun r => Reader.precache_of_remains_nil⟩
  peek := by
    apply runAlike_of_remains
    · intro c ps e
      exact ⟨c, c :: ps, fun r => Reader.peek_of_remains, fun r => Reader.peek_of_remains⟩
    · intro e
      exact ⟨_, fun r => Reader.peek_of_remains_nil, fun r => Reader.peek_of_remains_nil⟩
  read := by
    apply runAlike_of_remains
    · intro c ps e
      exact ⟨c, ps, fun r => Reader.read_of_remains, fun r => Reader.read_of_remains⟩
    · intro e
      exact ⟨_, fun r => Reader.read_of_remains_nil, fun r => Reader.read_of_remains_nil⟩

/-! ### Sessions from the start of a text -/

variable {t : Text} {stream : σ} {stream' : τ} {settings settings' : Settings}

/-- Sessions at the start of streams that serve the same text are alike. -/
theorem sessionAlike_start (hserves : Serves limit t stream) (hserves' : Serves limit' t stream')
    (hlimit : settings.blockSize ≤ limit) (hlimit' : settings'.blockSize ≤ limit')
    (journal journal' : Journal) :
    SessionAlike (Reader.SamePlace limit limit') (ReaderSession.start stream settings journal)
      (ReaderSession.start stream' settings' journal') where
  reader := ⟨_, _, Reader.remains_ofSource (Source.holds_of_serves hserves journal) hlimit,
    Reader.remains_ofSource (Source.holds_of_serves hserves' journal') hlimit'⟩
  iterators := rfl

/-- The settings of a reader that takes in one character at a time. -/
def Settings.oneByOne : Settings :=
  { Settings.default with blockSize := 1, blockSize_pos := by decide }

/-- A session that only reads ends, in whatever pieces its text comes in. -/
theorem Session.run_ends_of_serves (hserves : Serves limit t stream)
    (hlimit : settings.blockSize ≤ limit) (journal : Journal) {steps : List (Step ReaderAction)}
    (hsteps : ∀ step ∈ steps, step.OnlyReads) :
    ∃ done, run steps (ReaderSession.start stream settings journal) = some done := by
  -- On the text in memory every session ends.
  obtain ⟨known, hknown⟩ :=
    ReaderSession.run_ends steps (ReaderSession.start (Memory.ofText t) Settings.oneByOne {})
  have hone : Settings.oneByOne.blockSize ≤ largestSize := by decide
  obtain ⟨done, hrun, -⟩ := run_alike readAlike_samePlace journalFree_samePlace hsteps
    (sessionAlike_start (Memory.serves_ofText t) hserves hone hlimit {} journal) hknown
  exact ⟨done, hrun⟩

/-- **A session does not see how the text comes in.**  Let two streams serve the same text, each in
its own pieces, and let the block sizes be whatever the streams can be asked for.  Then any session
that only reads, with any number of iterators at work in any order, ends on both of them, and step
by step it has the same results and the same errors. -/
theorem outcomes_eq_of_serves (hserves : Serves limit t stream) (hserves' : Serves limit' t stream')
    (hlimit : settings.blockSize ≤ limit) (hlimit' : settings'.blockSize ≤ limit')
    (journal journal' : Journal) {steps : List (Step ReaderAction)}
    (hsteps : ∀ step ∈ steps, step.OnlyReads) :
    ∃ done done', Session.run steps (ReaderSession.start stream settings journal) = some done ∧
      Session.run steps (ReaderSession.start stream' settings' journal') = some done' ∧
      done.1.map Report.outcome = done'.1.map Report.outcome := by
  -- Both are compared with the text in memory, where every session ends.
  obtain ⟨known, hknown⟩ :=
    ReaderSession.run_ends steps (ReaderSession.start (Memory.ofText t) Settings.oneByOne {})
  have hmemory : Serves largestSize t (Memory.ofText t) := Memory.serves_ofText t
  have hone : Settings.oneByOne.blockSize ≤ largestSize := by decide
  obtain ⟨done, hrun, houtcomes, -⟩ :=
    Session.run_alike readAlike_samePlace journalFree_samePlace hsteps
      (sessionAlike_start hmemory hserves hone hlimit {} journal) hknown
  obtain ⟨done', hrun', houtcomes', -⟩ :=
    Session.run_alike readAlike_samePlace journalFree_samePlace hsteps
      (sessionAlike_start hmemory hserves' hone hlimit' {} journal') hknown
  exact ⟨done, done', hrun, hrun', houtcomes.symm.trans houtcomes'⟩

/-- A stream that cuts a pair of carriage return and line feed apart, beside text in memory that is
taken in at once.  One iterator is left between the two characters of the pair while another one and
direct reads go on. -/
theorem outcomes_eq_torn_pair :
    let pieces : List Text := [text "a\r", text "\n\r", text "b"]
    let stream : Script CodePoint := { items := pieces.map .units ++ [] }
    let memory := Memory.ofText (text "a\r\n\rb")
    let settings : Settings := { Settings.default with blockSize := 2, blockSize_pos := by decide }
    let steps : List (Step ReaderAction) :=
      [.record true, .act (.keep (text "line") (.characters .inLine)),
        .act (.keep (text "lines") .lines), .act (.advance (text "line") 2), .act .peek,
        .act (.advance (text "lines") 1), .act (.advance (text "line") 1),
        .act (.finish (text "lines")), .act (.read 3), .act .lineString]
    Serves 2 (text "a\r\n\rb") stream ∧ Serves largestSize (text "a\r\n\rb") memory ∧
      settings.blockSize ≤ 2 ∧ Settings.default.blockSize ≤ largestSize ∧
      (∀ step ∈ steps, step.OnlyReads) ∧
      ∃ done done', Session.run steps (ReaderSession.start stream settings {}) = some done ∧
        Session.run steps (ReaderSession.start memory Settings.default {}) = some done' ∧
        done.1.map Report.outcome = done'.1.map Report.outcome := by
  intro pieces stream memory settings steps
  have hstream : Serves 2 (text "a\r\n\rb") stream :=
    @Script.serves_pieces 2 pieces [] (by decide) .ended
  have hmemory : Serves largestSize (text "a\r\n\rb") memory := Memory.serves_ofText _
  have hlimit : settings.blockSize ≤ 2 := Nat.le_refl 2
  have hlimit' : Settings.default.blockSize ≤ largestSize := by decide
  have hsteps : ∀ step ∈ steps, step.OnlyReads := by decide
  exact ⟨hstream, hmemory, hlimit, hlimit', hsteps,
    outcomes_eq_of_serves hstream hmemory hlimit hlimit' {} {} hsteps⟩

end PlacedText
