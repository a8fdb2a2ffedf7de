import PlacedText.Proofs.Reader.Ahead
import PlacedText.Proofs.Session.Ending
import PlacedText.Proofs.Session.Trail
import PlacedText.Proofs.Session.Unfailing
import PlacedText.Proofs.Stream.Exact

/-!
# Bounded read-ahead

A reader takes in no more than it needs for a block.  The main statement, `read_ahead_bounded`, is
about all streams that give no more than they are asked for and about every state that a reader of
them can get into, faults and closing included: what is queued and looked at is at most one
character more than a block, and the stream is never asked for nothing, nor for more than a block
without the character that was looked at.

Along a trail the characters that came from the stream are counted (`Watched.AskedWithin`), as far
as no read has failed.
-/

namespace PlacedText

open Reader

variable {σ : Type} [InputStream CodePoint σ] {most b : Nat}

/-- A stream that gives no more than it is asked for, that was asked for at least one and at most
`most` characters each time, and from which, if no read has failed, `given` characters came. -/
structure Watched.AskedWithin (most : Nat) (s : Watched σ) (given : Nat) : Prop where
  exact : NeverOverlong s
  sizes : ∀ n ∈ s.sizes, 1 ≤ n ∧ n ≤ most
  pulled : s.Sound → s.pulled = given

/-- A stream that was not asked yet. -/
theorem Watched.askedWithin_fresh {stream : σ} (h : NeverOverlong stream) :
    AskedWithin most ({ stream } : Watched σ) 0 where
  exact := h.watched []
  sizes _ hn := absurd hn List.not_mem_nil
  pulled _ := rfl

/-- Asking for one to `most` characters keeps this. -/
theorem Watched.giving_askedWithin : Giving most (AskedWithin (σ := σ) most) where
  answer hpos hle h hread := by
    obtain ⟨hlength, hexact⟩ := keptExactly_neverOverlong.answer h.exact hread
    obtain ⟨hpulled, hsound, hsizes⟩ := of_read hread
    refine ⟨hlength, hexact, ?_, fun hs => ?_⟩
    · rw [hsizes]
      exact List.forall_mem_cons.2 ⟨⟨hpos, hle⟩, h.sizes⟩
    · rw [hpulled, h.pulled (hsound.1 hs)]
  fault hpos hle h hread given := by
    obtain ⟨hsound, hsizes⟩ := of_read_fault hread
    refine ⟨keptExactly_neverOverlong.fault h.exact hread, ?_, fun hs => absurd hs hsound⟩
    rw [hsizes]
    exact List.forall_mem_cons.2 ⟨⟨hpos, hle⟩, h.sizes⟩
  close {given stream} h := by
    obtain ⟨hpulled, hsound, hsizes⟩ := of_close stream
    refine ⟨keptExactly_neverOverlong.close h.exact, ?_, fun hs => ?_⟩
    · rw [hsizes]
      exact h.sizes
    · rw [hpulled, h.pulled (hsound.1 hs)]

/-- A reader with blocks of `b` characters, after the characters `cs` were handed out: how much it
holds, how much it has asked for each time, and how much it has pulled if no read has failed. -/
structure Reader.WithinBlock (b : Nat) (cs : List PlacedChar) (r : Reader (Watched σ)) : Prop where
  held_le : r.queue.length + r.source.lookahead.length ≤ b + 1
  lookahead_le : r.source.lookahead.length ≤ 1
  asked : ∀ n ∈ r.source.stream.sizes, 1 ≤ n ∧ n ≤ max 1 (b - 1)
  pulled_le : r.source.stream.Sound → r.source.stream.pulled ≤ cs.length + (b + 1)

/-- A reader that is ahead so far is within a block. -/
theorem Reader.Ahead.withinBlock {r : Reader (Watched σ)} {cs : List PlacedChar}
    (h : r.Ahead b (Watched.AskedWithin (largestAsked b)) cs.length) : r.WithinBlock b cs where
  held_le := h.held_le
  lookahead_le := h.source.lookahead_le
  asked := h.source.given.sizes
  pulled_le hsound := by
    rw [h.source.given.pulled hsound, Nat.add_assoc]
    exact Nat.add_le_add_left h.held_le _

/-- **Bounded read-ahead.**  Take any stream that gives no more than it is asked for; it may answer
with less or with nothing, say that nothing is ready, or fail, and go on each time.

Wherever moves of a reader lead from its start, with the characters `cs` handed out on the way, the
characters queued and the lookahead are together at most one more than a block, and the lookahead is
at most one.  Every size that the stream was asked for lies between one and the block size less one,
or is one.  As long as no read has failed, what was pulled is at most one block and one character
more than what was handed out.

A session, with closing, blocks and iterators in any order, is such a trail, and what its reports
show is handed out along it: all of it, if the steps tell all and no step met an error.  If no step
met an error, no read has failed. -/
theorem read_ahead_bounded {stream : σ} (hexact : NeverOverlong stream) (settings : Settings)
    (journal : Journal) :
    let start : ReaderSession (Watched σ) := .start { stream } settings journal
    (∀ cs r, Trail start.reader cs r → r.WithinBlock settings.blockSize cs) ∧
    ∀ (steps : List (Step ReaderAction)) ⦃reports u⦄, Session.run steps start = some (reports, u) →
      ∃ cs, Trail start.reader cs u.reader ∧ u.reader.WithinBlock settings.blockSize cs ∧
        (handedOut reports).Sublist cs ∧
        ((∀ report ∈ reports, report.failure = none) →
          u.reader.source.stream.pulled ≤ cs.length + (settings.blockSize + 1) ∧
          ((∀ step ∈ steps, step.TellsAll) → handedOut reports = cs)) := by
  intro start
  have hahead : start.reader.Ahead settings.blockSize
      (Watched.AskedWithin (largestAsked settings.blockSize)) 0 :=
    ⟨rfl, ⟨Watched.askedWithin_fresh hexact, Nat.zero_le 1, fun _ => rfl⟩, Nat.zero_le _⟩
  have hwithin : ∀ cs r, Trail start.reader cs r → r.WithinBlock settings.blockSize cs := by
    intro cs r htrail
    have hr := htrail.ahead Watched.giving_askedWithin hahead
    rw [Nat.zero_add] at hr
    exact hr.withinBlock
  refine ⟨hwithin, fun steps reports u hrun => ?_⟩
  obtain ⟨cs, htrail, hshown, hall⟩ := Session.run_trail hrun
  have hu := hwithin cs u.reader htrail
  refine ⟨cs, htrail, hu, hshown, fun hnone => ⟨?_, fun htells => hall htells hnone⟩⟩
  · have hsound : u.reader.source.stream.Sound :=
      Session.sound_of_no_failure hrun hnone fun call hcall => absurd hcall List.not_mem_nil
    exact hu.pulled_le hsound

/-- Blocks of two characters from a stream that answers with less, fails once, has nothing ready
once, and would go on.  An iterator, a look and a block that closes take turns.  A shorter session
meets no error: with the carriage return it has pulled the line feed after it. -/
theorem read_ahead_bounded_blocks_of_two :
    let stream : Script CodePoint :=
      { items := [.units (text "a"), .units (text "\r\nb"), .fail (text "broken"),
          .units (text "c"), .notReady, .units (text "x")] }
    let settings : Settings := { Settings.default with blockSize := 2, blockSize_pos := by decide }
    let start : ReaderSession (Watched (Script CodePoint)) := .start { stream } settings {}
    (∃ done cs, Session.run [.act (.keep (text "rest") (.characters .toEnd)), .act .peek,
          .within [.act (.advance (text "rest") 4), .act .close], .act (.read 3)] start =
          some done ∧
        done.2.reader.WithinBlock 2 cs) ∧
      ∃ reports u, Session.run [.act (.read 1)] start = some (reports, u) ∧
        (∀ report ∈ reports, report.failure = none) ∧ (handedOut reports).length = 1 ∧
        u.reader.source.stream.pulled = 3 ∧
        u.reader.source.stream.pulled ≤ (handedOut reports).length + (2 + 1) := by
  intro stream settings start
  obtain ⟨-, hsession⟩ := read_ahead_bounded
    (Script.neverOverlong (s := stream) rfl) settings {}
  refine ⟨?_, ?_⟩
  · obtain ⟨done, hrun⟩ := ReaderSession.run_ends
      [.act (.keep (text "rest") (.characters .toEnd)), .act .peek,
        .within [.act (.advance (text "rest") 4), .act .close], .act (.read 3)] start
    obtain ⟨cs, -, hwithin, -⟩ := hsession _ hrun
    exact ⟨done, cs, hrun, hwithin⟩
  · obtain ⟨⟨reports, u⟩, hrun⟩ := ReaderSession.run_ends [.act (.read 1)] start
    obtain ⟨cs, -, -, -, hnone⟩ := hsession _ hrun
    have hshown : (Session.run [.act (.read 1)] start).map (fun done =>
        (done.1.map Report.failure, (handedOut done.1).length,
          done.2.reader.source.stream.pulled)) = some ([none], 1, 3) := by decide +kernel
    rw [hrun, Option.map_some, Option.some.injEq, Prod.mk.injEq, Prod.mk.injEq] at hshown
    obtain ⟨hfailures, hlength, hpulled⟩ := hshown
    have hfine : ∀ report ∈ reports, report.failure = none := by
      intro report hreport
      have hmem : report.failure ∈ reports.map Report.failure := List.mem_map_of_mem hreport
      rw [hfailures] at hmem
      exact List.mem_singleton.1 hmem
    obtain ⟨hle, hall⟩ := hnone hfine
    rw [← hall (by decide)] at hle
    exact ⟨reports, u, hrun, hfine, hlength, hpulled, hle⟩

end PlacedText
