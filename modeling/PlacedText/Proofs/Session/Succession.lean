import Mathlib
import PlacedText.Proofs.Placed.Succession
import PlacedText.Proofs.Session.Trail

/-!
# What is handed out stands in a chain

On any stream whatsoever, the characters taken out of a reader stand one behind the other from the
start on.  The invariant is about those taken out and those still queued together: they are chained
up to the place of the next character to be taken in (`Reader.Trail.chained`).  A block that a fault
has lost was never placed, so the next one goes on from where the lost one would have begun.

The main statement is `placed_in_a_chain`, for trails and for sessions.
-/

namespace PlacedText

variable {σ : Type} [InputStream CodePoint σ]

/-- The characters stand in a chain that begins at `p`: the first one there, each other one behind
the one before it, and so all of them in reading order, no two at the same place. -/
structure ChainedFrom (p : Position) (cs : List PlacedChar) : Prop where
  first : ∀ c ∈ cs.head?, c.place = p
  next : cs.IsChain PlacedChar.FollowedBy
  order : cs.Pairwise (·.place < ·.place)

theorem Chained.chainedFrom {p q : Position} {cs ds : List PlacedChar}
    (h : Chained p (cs ++ ds) q) : ChainedFrom p cs where
  first c hc := h.place_head c (by rw [List.head?_append, hc]; rfl)
  next := h.isChain.left_of_append
  order := (List.pairwise_append.1 h.pairwise_lt).1

namespace Reader

variable {r r' : Reader σ} {p : Position} {handed cs : List PlacedChar}

/-- **One move.**  What was handed out and what is queued stays chained up to the next place. -/
theorem Move.chained {c : Option PlacedChar} (hmove : Move r c r')
    (h : Chained p (handed ++ r.queue) r.next) :
    Chained p (handed ++ c.toList ++ r'.queue) r'.next := by
  cases hmove with
  | ask =>
    obtain ⟨s, hs⟩ := exists_endState_atEnd r
    rw [hs, Option.toList_none, List.append_nil]
    exact h
  | fill =>
    -- A new block is chained behind the queue, wherever the cut between them is.
    obtain ⟨s, block, hs⟩ := exists_endState_precache r
    rw [hs, Option.toList_none, List.append_nil, ← List.append_assoc]
    exact h.append (chained_place r.next block)
  | take hqueued =>
    rw [hqueued] at h
    rw [Option.toList_some, List.append_assoc]
    exact h
  | close =>
    rw [Option.toList_none, List.append_nil]
    exact h
  | note j =>
    rw [Option.toList_none, List.append_nil]
    exact h

/-- **Any number of moves.** -/
theorem Trail.chained (htrail : Trail r cs r') (h : Chained p (handed ++ r.queue) r.next) :
    Chained p (handed ++ cs ++ r'.queue) r'.next := by
  induction htrail generalizing handed with
  | stay r =>
    rw [List.append_nil]
    exact h
  | move hmove _ ih =>
    rw [← List.append_assoc handed]
    exact ih (hmove.chained h)

/-- Along a trail from the start of a stream, what is taken out and what is queued is chained. -/
theorem Trail.chained_start {source : Source σ} {settings : Settings}
    (htrail : Trail (ofSource source settings) cs r) : Chained .start (cs ++ r.queue) r.next := by
  have hfresh : Chained .start ([] ++ (ofSource source settings).queue) .start := .nil .start
  exact htrail.chained hfresh

/-- Whatever string the reader would make next is in order: the rest of the line, the next line, or
all that is left. -/
structure MakesInOrder (r : Reader σ) : Prop where
  lineString : ∀ ⦃s r'⦄, lineString r = some (.ok s r') → s.InOrder
  nextLine : ∀ ⦃s r'⦄, nextLine r = some (.ok (some s) r') → s.InOrder
  wholeText : ∀ ⦃s r'⦄, wholeText r = some (.ok (some s) r') → s.InOrder

/-- A string that is made along a trail from the start of a stream is in order. -/
theorem Trail.inOrder {source : Source σ} {settings : Settings} {s : PlacedString}
    (htrail : Trail (ofSource source settings) cs r) (h : Trail r s.chars r') : s.InOrder :=
  PlacedString.inOrder_of_chained (htrail.trans h).chained_start
    ((List.sublist_append_right cs s.chars).trans (List.sublist_append_left _ _))

theorem Trail.makesInOrder {source : Source σ} {settings : Settings}
    (htrail : Trail (ofSource source settings) cs r) : r.MakesInOrder where
  lineString s r' hrun := by
    cases lineString_trailing hrun with
    | ok h => exact htrail.inOrder h
  nextLine s r' hrun := by
    cases nextLine_trailing hrun with
    | ok h =>
      replace h : Trail r (s.chars ++ []) r' := h
      rw [List.append_nil] at h
      exact htrail.inOrder h
  wholeText s r' hrun := by
    cases wholeText_trailing hrun with
    | ok h =>
      replace h : Trail r (s.chars ++ []) r' := h
      rw [List.append_nil] at h
      exact htrail.inOrder h

end Reader

/-- **What is handed out stands in a chain.**  Take any stream, which may answer with nothing, with
more than it was asked for, or fail, and go on each time.  Whatever is done to a reader of it, the
characters taken out of the reader, in this order, begin at the start, and each one stands directly
behind the one before it; so they come in reading order, and no two stand at the same place.  And
whatever string the reader would make then has a span that does not run backwards, and as many
characters as its text has code points.

The reports of a session show characters of such a chain in its order.  They show all of it if its
steps do, and no error came between the characters of a string: if the steps that met an error took
single characters, and those not from an iterator of a name under which lines were taken. -/
theorem placed_in_a_chain (stream : σ) (settings : Settings) (journal : Journal) :
    (∀ ⦃cs r⦄, Reader.Trail (.ofSource { stream, journal } settings) cs r →
      ChainedFrom .start cs ∧ r.MakesInOrder) ∧
    ∀ (steps : List (Step ReaderAction)) ⦃done⦄,
      Session.run steps (ReaderSession.start stream settings journal) = some done →
        (∃ cs, Reader.Trail (.ofSource { stream, journal } settings) cs done.2.reader ∧
          (handedOut done.1).Sublist cs) ∧
        (handedOut done.1).Pairwise (·.place < ·.place) ∧
        ((∀ step ∈ steps, step.TellsAll) →
          (∀ x ∈ steps.zip done.1,
            x.2.failure = none ∨ x.1.TakesSingly fun name => steps.any (Step.keepsLines name)) →
            ChainedFrom .start (handedOut done.1)) := by
  have hchain : ∀ ⦃cs r⦄, Reader.Trail (.ofSource { stream, journal } settings) cs r →
      ChainedFrom .start cs := fun cs r htrail => htrail.chained_start.chainedFrom
  refine ⟨fun cs r htrail => ⟨hchain htrail, htrail.makesInOrder⟩, fun steps done hrun => ?_⟩
  obtain ⟨cs, htrail, hshown, hall⟩ :=
    Session.run_along (fun name => steps.any (Step.keepsLines name)) hrun
  refine ⟨⟨cs, htrail, hshown⟩, (hchain htrail).order.sublist hshown, fun htells hcareful => ?_⟩
  rw [hall htells (fun step hstep name hname => List.any_eq_true.2 ⟨step, hstep, hname⟩)
    (fun kept hkept => absurd hkept List.not_mem_nil) hcareful]
  exact hchain htrail

/-- A stream that gives more than it was asked for, tears a carriage return and a line feed apart,
fails twice and goes on.  Direct reads and two iterators take turns, and reading goes on after the
faults and past the end.  In another session an iterator takes a line, and a direct read fails. -/
theorem placed_in_a_chain_torn_and_failing :
    let stream : Script CodePoint :=
      { items := [.units (text "ab\r"), .units (text "\nc"), .fail (text "broken"),
          .units (text "d\re"), .notReady, .fail (text "broken"), .units (text "f")]
        overlong := true }
    let settings : Settings := { Settings.default with blockSize := 1, blockSize_pos := by decide }
    let steps : List (Step ReaderAction) :=
      [.act (.keep (text "line") (.characters .inLine)), .act (.read 2),
        .act (.keep (text "rest") (.characters .toEnd)), .act (.advance (text "line") 2),
        .act (.advance (text "rest") 2), .act (.read 1), .act (.advance (text "line") 3),
        .act (.read 5), .act .close, .act (.drain .toEnd)]
    let lined : List (Step ReaderAction) :=
      [.act (.keep (text "lines") .lines), .act (.advance (text "lines") 1), .act (.read 2),
        .act (.read 1)]
    let start : ReaderSession (Script CodePoint) := .start stream settings {}
    ((∀ step ∈ steps, step.TellsAll) ∧ ∃ done, Session.run steps start = some done ∧
        ChainedFrom .start (handedOut done.1) ∧ done.2.reader.MakesInOrder) ∧
      (∀ step ∈ lined, step.TellsAll) ∧ ∃ done, Session.run lined start = some done ∧
        done.1.map Report.failure = [none, none, some (.fault (.system (text "broken"))), none] ∧
        ChainedFrom .start (handedOut done.1) := by
  intro stream settings steps lined start
  obtain ⟨hchain, hsession⟩ := placed_in_a_chain stream settings {}
  constructor
  · have htells : ∀ step ∈ steps, step.TellsAll := by decide
    have hsingly : ∀ step ∈ steps,
        step.TakesSingly fun name => steps.any (Step.keepsLines name) := by decide
    obtain ⟨done, hrun⟩ := ReaderSession.run_ends steps start
    obtain ⟨⟨cs, htrail, -⟩, -, hall⟩ := hsession steps hrun
    have hcareful := hall htells fun x hx => .inr (hsingly x.1 (List.of_mem_zip hx).1)
    exact ⟨htells, done, hrun, hcareful, (hchain htrail).2⟩
  · have htells : ∀ step ∈ lined, step.TellsAll := by decide
    obtain ⟨done, hrun⟩ := ReaderSession.run_ends lined start
    obtain ⟨-, -, hall⟩ := hsession lined hrun
    have hfailures : (Session.run lined start).map (fun done => done.1.map Report.failure) =
        some [none, none, some (.fault (.system (text "broken"))), none] := by cbv
    rw [hrun, Option.map_some, Option.some.injEq] at hfailures
    refine ⟨htells, done, hrun, hfailures, hall htells fun x hx => ?_⟩
    -- Only the third step has failed, and it is a direct read.
    have hcareful : ∀ y ∈ lined.zip [none, none, some (ReadError.fault (.system (text "broken"))),
        none], y.2 = none ∨ y.1.TakesSingly fun name => lined.any (Step.keepsLines name) := by
      decide
    have hmem : (x.1, x.2.failure) ∈ lined.zip (done.1.map Report.failure) := by
      rw [List.zip_map_right]
      exact List.mem_map_of_mem hx
    rw [hfailures] at hmem
    exact hcareful _ hmem

end PlacedText
