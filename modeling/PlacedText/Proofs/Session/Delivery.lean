import PlacedText.Proofs.Reader.Delivery
import PlacedText.Proofs.Session.Ending

/-!
# Sessions hand out everything once

The reports of a session show what was handed out: the characters of its results, in the order of
the steps.  The main statement, `handedOut_of_faultless`, is that on any stream that does not fail
these characters are the beginning of the text heard of the stream, and all of it once the data has
ended, however many iterators took turns.  The stream may answer with more than it was asked for;
only where the characters stand depends on that.
-/

namespace PlacedText

/-- The characters that a result hands out.  A single character is one that was only looked at. -/
def ReaderResult.handed : ReaderResult → List PlacedChar
  | .char _ => []
  | .chars cs => cs
  | .string s => s.chars
  | .strings ss => ss.flatMap PlacedString.chars
  | .items is _ => is.flatMap Item.chars
  | .flag _ => []
  | .settings _ => []
  | .nothing => []

/-- The characters that a report shows as handed out. -/
def Report.handed {ν : Type} : Report ReaderResult ν → List PlacedChar
  | .mk result _ _ _ _ => result.toList.flatMap ReaderResult.handed

/-- The characters that reports show as handed out, in the order of the steps. -/
def handedOut {ν : Type} (reports : List (Report ReaderResult ν)) : List PlacedChar :=
  reports.flatMap Report.handed

/-- A step of which the report shows all that was read, and which does not close the stream.
Skipping shows only the last character. -/
def Step.ShowsReading : Step ReaderAction → Bool
  | .act (.skip _) => false
  | .act .close => false
  | .act _ => true
  | .within _ => false
  | .record _ => true

variable {σ β : Type} [InputStream CodePoint σ] {limit : Nat} {origin : σ} {xs : List Exchange}
  {handed : List PlacedChar}

/-! ### One action -/

namespace ReaderSession

variable {t : ReaderSession σ} {p : Performed (ReaderSession σ) ReaderResult}

theorem doing_of_delivered {x : DrainM σ β} {chars : β → List PlacedChar}
    (hx : HandsOut limit origin chars x) (result : β → ReaderResult)
    (hresult : ∀ b, (result b).handed = chars b)
    (h : t.reader.Delivered limit origin xs handed) (hrun : doing x result t = some p) :
    ∃ xs', xs <+: xs' ∧ p.subject.reader.Delivered limit origin xs'
      (handed ++ p.result.toList.flatMap ReaderResult.handed) := by
  obtain ⟨ended, hended, rfl⟩ := Option.map_eq_some_iff.1 hrun
  obtain ⟨xs', hgrown, hhanded⟩ := hx h hended
  refine ⟨xs', hgrown, ?_⟩
  cases hhanded with
  | ok hr =>
    show Reader.Delivered limit origin xs' (handed ++ ((result _).handed ++ [])) _
    rw [List.append_nil, hresult]
    exact hr
  | error hr =>
    show Reader.Delivered limit origin xs' (handed ++ []) _
    rw [List.append_nil]
    exact hr

theorem draining_of_delivered {κ : Type} {q : Producer σ κ β} {k : κ}
    {chars : β → List PlacedChar} (hq : ∀ k, HandsOut limit origin (stepChars chars) (q k))
    (result : List β → ReaderResult) (hresult : ∀ bs, (result bs).handed = bs.flatMap chars)
    (h : t.reader.Delivered limit origin xs handed) (hrun : draining q k result t = some p) :
    ∃ xs', xs <+: xs' ∧ p.subject.reader.Delivered limit origin xs'
      (handed ++ p.result.toList.flatMap ReaderResult.handed) := by
  obtain ⟨d, hd, rfl⟩ := Option.map_eq_some_iff.1 hrun
  obtain ⟨xs', hgrown, hr⟩ := Producer.drain_of_delivered hq h hd
  refine ⟨xs', hgrown, ?_⟩
  show Reader.Delivered limit origin xs' (handed ++ ((result d.items).handed ++ [])) _
  rw [List.append_nil, hresult]
  exact hr

/-- Reading a number of characters hands out those that were read. -/
theorem readOnto_of_delivered (times : Nat) :
    ∀ (taken : List PlacedChar) {r : Reader σ} {xs : List Exchange},
      r.Delivered limit origin xs (handed ++ taken.reverse) →
        ∃ xs', xs <+: xs' ∧ (readOnto taken r times).reader.Delivered limit origin xs'
          (handed ++ (readOnto taken r times).items) := by
  induction times with
  | zero => exact fun taken r xs h => ⟨xs, List.prefix_rfl, h⟩
  | succ times ih =>
    intro taken r xs h
    rcases Reader.read_of_delivered h with
      ⟨xs₁, r₁, hgrown, ⟨c, hread, hr₁⟩ | ⟨-, e, hread, hr₁⟩⟩
    · rw [List.append_assoc, ← List.reverse_cons] at hr₁
      obtain ⟨xs', hgrown', hr'⟩ := ih (c :: taken) hr₁
      rw [readOnto, hread]
      exact ⟨xs', hgrown.trans hgrown', hr'⟩
    · rw [readOnto, hread]
      exact ⟨xs₁, hgrown, hr₁⟩

/-- **One action.**  An action that shows what it reads keeps the account. -/
theorem perform_of_delivered {a : ReaderAction} (ha : (Step.act a).ShowsReading)
    (h : t.reader.Delivered limit origin xs handed) (hrun : perform a t = some p) :
    ∃ xs', xs <+: xs' ∧ p.subject.reader.Delivered limit origin xs'
      (handed ++ p.result.toList.flatMap ReaderResult.handed) := by
  have hquiet : t.reader.Delivered limit origin xs (handed ++ []) := by
    rw [List.append_nil]; exact h
  cases a with
  | read times =>
    cases hrun
    rw [← List.reverse_nil] at hquiet
    obtain ⟨xs', hgrown, hr⟩ := readOnto_of_delivered times [] hquiet
    refine ⟨xs', hgrown, ?_⟩
    show Reader.Delivered limit origin xs' (handed ++ (_ ++ [])) _
    rw [List.append_nil]
    exact hr
  | skip times => cases ha
  | peek => exact doing_of_delivered Reader.peek_handsOut _ (fun _ => rfl) h hrun
  | precache => exact doing_of_delivered Reader.precache_handsOut _ (fun _ => rfl) h hrun
  | atEnd => exact doing_of_delivered Reader.atEnd_handsOut _ (fun _ => rfl) h hrun
  | drain k =>
    exact draining_of_delivered Producer.characters_handsOut .chars
      (fun cs => (List.flatMap_singleton' cs).symm) h hrun
  | lines => exact draining_of_delivered Producer.lines_handsOut _ (fun _ => rfl) h hrun
  | wholeText =>
    refine doing_of_delivered Reader.wholeText_handsOut _ (fun s => ?_) h hrun
    cases s with
    | none => rfl
    | some s => exact (List.append_nil s.chars).symm
  | lineString => exact doing_of_delivered Reader.lineString_handsOut _ (fun _ => rfl) h hrun
  | keep name i =>
    cases hrun
    exact ⟨xs, List.prefix_rfl, hquiet⟩
  | advance name times =>
    obtain ⟨advance, hadvance, rfl⟩ := Option.map_eq_some_iff.1 hrun
    obtain ⟨xs', hgrown, hr⟩ := Iterator.advanceOnto_of_delivered times [] _ hadvance hquiet
    refine ⟨xs', hgrown, ?_⟩
    show Reader.Delivered limit origin xs' (handed ++ (_ ++ [])) _
    rw [List.append_nil]
    exact hr
  | finish name =>
    cases hrun
    exact ⟨xs, List.prefix_rfl, hquiet⟩
  | settings =>
    cases hrun
    exact ⟨xs, List.prefix_rfl, hquiet⟩
  | close => cases ha

end ReaderSession

/-! ### Whole sessions -/

namespace Session

variable {t : ReaderSession σ}

/-- **One step.**  A step that shows what it reads keeps the account. -/
theorem runStep_of_delivered {step : Step ReaderAction} (hstep : step.ShowsReading)
    (h : t.reader.Delivered limit origin xs handed) {done : Report ReaderResult Position × _}
    (hrun : runStep step t = some done) :
    ∃ xs', xs <+: xs' ∧ done.2.reader.Delivered limit origin xs' (handed ++ done.1.handed) := by
  cases step with
  | act a =>
    obtain ⟨p, hp, rfl⟩ := runStep_act_eq_some_iff.1 hrun
    obtain ⟨xs', hgrown, hr⟩ := ReaderSession.perform_of_delivered hstep h hp
    exact ⟨xs', hgrown, hr.of_journal _⟩
  | within body => cases hstep
  | record on =>
    obtain rfl := runStep_record_eq_some_iff.1 hrun
    refine ⟨xs, List.prefix_rfl, ?_⟩
    show Reader.Delivered limit origin xs (handed ++ []) _
    rw [List.append_nil]
    exact (h.of_journal _).of_journal _

/-- **All steps.**  Steps that show what they read keep the account. -/
theorem run_of_delivered {steps : List (Step ReaderAction)}
    (hsteps : ∀ step ∈ steps, step.ShowsReading) (h : t.reader.Delivered limit origin xs handed)
    {done : List (Report ReaderResult Position) × _} (hrun : run steps t = some done) :
    ∃ xs', xs <+: xs' ∧
      done.2.reader.Delivered limit origin xs' (handed ++ handedOut done.1) := by
  induction steps generalizing t xs handed done with
  | nil =>
    cases hrun
    refine ⟨xs, List.prefix_rfl, ?_⟩
    rw [handedOut, List.flatMap_nil, List.append_nil]
    exact h
  | cons step steps ih =>
    obtain ⟨first, rest, hfirst, hrest, rfl⟩ := run_cons_eq_some_iff.1 hrun
    obtain ⟨xs₁, hgrown, hr⟩ := runStep_of_delivered (hsteps step List.mem_cons_self) h hfirst
    obtain ⟨xs', hgrown', hr'⟩ :=
      ih (fun step hmem => hsteps step (List.mem_cons_of_mem _ hmem)) hr hrest
    refine ⟨xs', hgrown.trans hgrown', ?_⟩
    rw [handedOut, List.flatMap_cons, ← List.append_assoc]
    exact hr'

end Session

/-- **Everything is handed out once.**  Take any session on a stream that does not fail, with any
number of iterators at work between direct reads; the stream may answer with more than it was asked
for, and would perhaps go on after an empty answer.  What the session handed out, in this order, is
the beginning of what was heard of the stream up to its first empty answer; and when the data has
ended, it is all of that.  If no answer was longer than what was asked for, each character stands
where counting puts it.

The stream may also go on for ever.  Then a session need not end, but only because a step of it
looks for an end that does not come; single characters can be taken all the same. -/
theorem handedOut_of_faultless {stream : σ} (hfaultless : Faultless limit stream)
    {settings : Settings} (hlimit : settings.blockSize ≤ limit) (journal : Journal)
    {steps : List (Step ReaderAction)} (hsteps : ∀ step ∈ steps, step.ShowsReading) :
    ((∀ step ∈ steps, step.Bounded) →
      ∃ done, Session.run steps (ReaderSession.start stream settings journal) = some done) ∧
    ∀ ⦃reports : List (Report ReaderResult Position)⦄ ⦃t : ReaderSession σ⦄,
      Session.run steps (ReaderSession.start stream settings journal) = some (reports, t) →
      ∃ xs, Exchanged stream xs t.reader.source.stream ∧
        textOf (handedOut reports) <+: heard xs ∧
        (AllExact xs → ∀ k c, (handedOut reports)[k]? = some c → (heard xs).charAt? k = some c) ∧
        ∃ ended xs' r', Reader.atEnd t.reader = .ok ended r' ∧ xs <+: xs' ∧
          Exchanged stream xs' r'.source.stream ∧
          (ended = true → heard xs' = textOf (handedOut reports) ∧ ∃ x ∈ xs', x.IsEmpty) := by
  constructor
  · intro hbounded
    apply ReaderSession.run_ends_of_bounded hbounded
    exact fun kept hkept => absurd hkept List.not_mem_nil
  · intro reports t hrun
    obtain ⟨xs, -, ht⟩ := Session.run_of_delivered hsteps
      (Reader.delivered_ofSource hfaultless hlimit journal) hrun
    -- Asking for the end may take one more exchange, and the account covers that as well.
    obtain ⟨ended, xs', r', hend, hgrown, hr', hover, -⟩ := Reader.atEnd_of_delivered ht
    exact ⟨xs, ht.accounts.exchanged, ht.textOf_begins,
      fun hexact _ _ => ht.charAt?_of_getElem? hexact,
      ended, xs', r', hend, hgrown, hr'.accounts.exchanged, hover⟩

/-- A stream that gives more than it was asked for, and would go on after an empty answer.  Two
iterators and direct reads take turns, and one iterator is left between a carriage return and the
line feed after it. -/
theorem handedOut_overlong_answers :
    let stream : Script CodePoint :=
      { items := [.units (text "a\r"), .units (text "\nbc\rd"), .units [], .units (text "x")]
        overlong := true }
    let settings : Settings := { Settings.default with blockSize := 2, blockSize_pos := by decide }
    let steps : List (Step ReaderAction) :=
      [.act (.keep (text "line") (.characters .inLine)), .act (.keep (text "lines") .lines),
        .act (.advance (text "line") 2), .act (.read 1), .act (.advance (text "lines") 1),
        .act (.advance (text "line") 1), .act (.finish (text "lines")), .act .wholeText]
    Faultless 2 stream ∧ settings.blockSize ≤ 2 ∧ (∀ step ∈ steps, step.ShowsReading) ∧
      ∃ reports t, Session.run steps (ReaderSession.start stream settings {}) = some (reports, t) ∧
        ∃ xs, Exchanged stream xs t.reader.source.stream ∧
          textOf (handedOut reports) <+: heard xs ∧
          (AllExact xs → ∀ k c, (handedOut reports)[k]? = some c → (heard xs).charAt? k = some c) ∧
          ∃ ended xs' r', Reader.atEnd t.reader = .ok ended r' ∧ xs <+: xs' ∧
            Exchanged stream xs' r'.source.stream ∧
            (ended = true → heard xs' = textOf (handedOut reports) ∧ ∃ x ∈ xs', x.IsEmpty) := by
  intro stream settings steps
  have hfaultless : Faultless 2 stream := by
    apply Script.faultless
    rintro item hitem message rfl
    simp [stream] at hitem
  have hlimit : settings.blockSize ≤ 2 := Nat.le_refl 2
  have hsteps : ∀ step ∈ steps, step.ShowsReading := by decide
  obtain ⟨⟨reports, t⟩, hrun⟩ :=
    ReaderSession.run_ends steps (ReaderSession.start stream settings {})
  exact ⟨hfaultless, hlimit, hsteps, reports, t, hrun,
    (handedOut_of_faultless hfaultless hlimit {} hsteps).2 hrun⟩

end PlacedText
