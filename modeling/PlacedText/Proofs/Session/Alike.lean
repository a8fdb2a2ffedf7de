import PlacedText.Proofs.Reader.Alike
import PlacedText.Proofs.Session.Delivery

/-!
# Sessions that run alike

A session on a reader keeps iterators under names.  Two sessions whose readers run alike, and whose
iterators are the same, perform each action alike: with the same result and the same error.  Closing
and telling the settings are not built from the elementary actions, so of them it has to be known.

If the readers run alike only until an error as in `F`, the sessions have the same outcomes up to
the step that met it, and what that one handed out is the front of what it hands out in the other
session (`Session.run_until`).  Without such an error they have the same outcome step by step
(`Session.run_alike`).  Both are about steps that neither close the stream nor tell the settings,
and about relations in which the journal has no part.
-/

namespace PlacedText

variable {σ τ : Type} {F : ReadError → Reader σ → Prop} {R : Reader σ → Reader τ → Prop}

/-- Related readers, and the same iterators kept under the same names. -/
structure SessionAlike (R : Reader σ → Reader τ → Prop) (t : ReaderSession σ)
    (u : ReaderSession τ) : Prop where
  reader : R t.reader u.reader
  iterators : t.iterators = u.iterators

/-- The same result and the same error, and sessions that are alike behind them. -/
structure PerformedAlike (R : Reader σ → Reader τ → Prop)
    (p : Performed (ReaderSession σ) ReaderResult) (q : Performed (ReaderSession τ) ReaderResult) :
    Prop where
  result : p.result = q.result
  failure : p.failure = q.failure
  subject : SessionAlike R p.subject q.subject

/-- The characters that an action has handed out. -/
def Performed.handed {θ : Type} (p : Performed θ ReaderResult) : List PlacedChar :=
  p.result.toList.flatMap ReaderResult.handed

/-- The second action is performed like the first one, unless that one was stopped; and then it has
handed out the front of what the second one hands out, if that one ends. -/
inductive PerformedUntil (F : ReadError → Reader σ → Prop) (R : Reader σ → Reader τ → Prop)
    (p : Performed (ReaderSession σ) ReaderResult) :
    Option (Performed (ReaderSession τ) ReaderResult) → Prop where
  | alike {q : Performed (ReaderSession τ) ReaderResult} (alike : PerformedAlike R p q) :
      PerformedUntil F R p (some q)
  | stopped {e : ReadError} {performed : Option (Performed (ReaderSession τ) ReaderResult)}
      (failure : p.failure = some e) (stop : F e p.subject.reader)
      (front : ∀ q, performed = some q → p.handed <+: q.handed) : PerformedUntil F R p performed

namespace ReaderSession

variable {t : ReaderSession σ} {u : ReaderSession τ} {p : Performed (ReaderSession σ) ReaderResult}

theorem doing_until {β : Type} {x : DrainM σ β} {y : DrainM τ β} (hxy : FollowedUntil F R x y)
    (result : β → ReaderResult) (h : SessionAlike R t u) (hrun : doing x result t = some p) :
    PerformedUntil F R p (doing y result u) := by
  obtain ⟨ended, hx, rfl⟩ := Option.map_eq_some_iff.1 hrun
  rcases hxy h.reader hx with ⟨e, s, rfl, hF⟩ | ⟨ended', hy, halike⟩
  · -- Nothing was handed out.
    exact .stopped rfl hF fun _ _ => List.nil_prefix
  · rw [doing, hy]
    cases halike with
    | ok hR => exact .alike ⟨rfl, rfl, hR, h.iterators⟩
    | error hR => exact .alike ⟨rfl, rfl, hR, h.iterators⟩

theorem draining_until {κ β : Type} {x : Producer σ κ β} {y : Producer τ κ β}
    (hxy : ∀ k, FollowedUntil F R (x k) (y k)) {k : κ} {result : List β → ReaderResult}
    {chars : β → List PlacedChar} (hresult : ∀ bs, (result bs).handed = bs.flatMap chars)
    (h : SessionAlike R t u) (hrun : draining x k result t = some p) :
    PerformedUntil F R p (draining y k result u) := by
  obtain ⟨d, hx, rfl⟩ := Option.map_eq_some_iff.1 hrun
  have huntil : DrainedUntil F R d (y.drain k u.reader) := Producer.drain_until hxy h.reader hx
  rw [draining]
  generalize y.drain k u.reader = drained at huntil ⊢
  cases huntil with
  | alike halike =>
    exact .alike ⟨congrArg (some ∘ result) halike.items, halike.failure, halike.reader,
      h.iterators⟩
  | stopped hfailure hF hfront =>
    refine .stopped hfailure hF fun q hq => ?_
    obtain ⟨d', hd', rfl⟩ := Option.map_eq_some_iff.1 hq
    obtain ⟨later, hlater⟩ := hfront d' hd'
    show (result d.items).handed ++ [] <+: (result d'.items).handed ++ []
    rw [List.append_nil, List.append_nil, hresult, hresult, ← hlater, List.flatMap_append]
    exact List.prefix_append _ _

theorem keep_alike (h : SessionAlike R t u) (name : Text) (i : Iterator) :
    SessionAlike R (t.keep name i) (u.keep name i) :=
  ⟨h.reader, by rw [keep, keep, h.iterators]⟩

variable [InputStream CodePoint σ] [InputStream CodePoint τ]

omit [InputStream CodePoint σ] in
/-- What was read before stays in front. -/
theorem taken_prefix_items (times : Nat) :
    ∀ (taken : List PlacedChar) (r : Reader τ),
      taken.reverse <+: (readOnto taken r times).items := by
  induction times with
  | zero => exact fun taken r => List.prefix_rfl
  | succ times ih =>
    intro taken r
    rw [readOnto]
    cases Reader.read r with
    | error e r' => exact List.prefix_rfl
    | ok c r' =>
      have hmore : (c :: taken).reverse <+: (readOnto (c :: taken) r' times).items := ih _ _
      rw [List.reverse_cons] at hmore
      exact (List.prefix_append _ _).trans hmore

theorem readOnto_until (h : ReadUntil F R) (times : Nat) :
    ∀ (taken : List PlacedChar) {r : Reader σ} {r' : Reader τ}, R r r' →
      DrainedUntil F R (readOnto taken r times) (some (readOnto taken r' times)) := by
  induction times with
  | zero => exact fun taken _ _ hR => .alike ⟨rfl, rfl, hR⟩
  | succ times ih =>
    intro taken r r' hR
    have hfront : taken.reverse <+: (readOnto taken r' (times + 1)).items :=
      taken_prefix_items (times + 1) taken r'
    rcases h.read hR with ⟨e, s, hread, hF⟩ | halike
    · rw [readOnto, hread]
      refine .stopped rfl hF fun d' hd' => ?_
      rw [← Option.some.inj hd']
      exact hfront
    · rw [readOnto, readOnto]
      generalize Reader.read r = result at halike ⊢
      generalize Reader.read r' = result' at halike ⊢
      cases halike with
      | ok hR' => exact ih _ hR'
      | error hR' =>
        -- Reading stops here on both sides, with what was taken so far.
        exact .alike ⟨rfl, rfl, hR'⟩

theorem perform_read_until (hread : ReadUntil F R) (times : Nat) (h : SessionAlike R t u)
    (hrun : perform (.read times) t = some p) :
    PerformedUntil F R p (perform (.read times) u) := by
  cases hrun
  have huntil : DrainedUntil F R (readOnto [] t.reader times) (some (readOnto [] u.reader times)) :=
    readOnto_until hread times [] h.reader
  rw [perform]
  generalize readOnto [] t.reader times = d at huntil ⊢
  generalize readOnto [] u.reader times = d' at huntil ⊢
  cases huntil with
  | alike halike =>
    exact .alike ⟨by rw [halike.items], halike.failure, halike.reader, h.iterators⟩
  | stopped hfailure hF hfront =>
    refine .stopped hfailure hF fun q hq => ?_
    obtain rfl := Option.some.inj hq
    show d.items ++ [] <+: d'.items ++ []
    rw [List.append_nil, List.append_nil]
    exact hfront d' rfl

theorem perform_skip_until (hread : ReadUntil F R) (times : Nat) (h : SessionAlike R t u)
    (hrun : perform (.skip times) t = some p) :
    PerformedUntil F R p (perform (.skip times) u) := by
  cases hrun
  have huntil : DrainedUntil F R (readOnto [] t.reader times) (some (readOnto [] u.reader times)) :=
    readOnto_until hread times [] h.reader
  rw [perform]
  generalize readOnto [] t.reader times = d at huntil ⊢
  generalize readOnto [] u.reader times = d' at huntil ⊢
  cases huntil with
  | alike halike =>
    exact .alike ⟨by rw [halike.items, halike.failure], halike.failure, halike.reader, h.iterators⟩
  | stopped hfailure hF hfront =>
    -- A stopped skip shows no character.
    refine .stopped hfailure hF fun q _ => ?_
    show (if d.failure.isSome = true then none else _ : Option ReaderResult).toList.flatMap _ <+: _
    rw [hfailure]
    exact List.nil_prefix

theorem perform_advance_until (hread : ReadUntil F R) (name : Text) (times : Nat)
    (h : SessionAlike R t u) (hrun : perform (.advance name times) t = some p) :
    PerformedUntil F R p (perform (.advance name times) u) := by
  obtain ⟨a, ha, rfl⟩ := Option.map_eq_some_iff.1 hrun
  -- The same name leads to the same iterator, which then takes the same steps.
  have hsame : t.iterator name = u.iterator name := by rw [iterator, iterator, h.iterators]
  rw [hsame] at ha
  have huntil : AdvanceUntil F R a ((u.iterator name).advance times u.reader) :=
    hread.advanceOnto times [] _ h.reader ha
  rw [perform]
  generalize (u.iterator name).advance times u.reader = advance at huntil ⊢
  cases huntil with
  | @alike a' halike =>
    refine .alike ⟨?_, halike.failure, ?_⟩
    · rw [halike.items, halike.ended]
    · rw [halike.iterator]
      exact keep_alike (t := { t with reader := a.reader }) (u := { u with reader := a'.reader })
        ⟨halike.reader, h.iterators⟩ name _
  | stopped hfailure hF hfront =>
    refine .stopped hfailure hF fun q hq => ?_
    obtain ⟨a', ha', rfl⟩ := Option.map_eq_some_iff.1 hq
    obtain ⟨later, hlater⟩ := hfront a' ha'
    show a.items.flatMap Item.chars ++ [] <+: a'.items.flatMap Item.chars ++ []
    rw [List.append_nil, List.append_nil, ← hlater, List.flatMap_append]
    exact List.prefix_append _ _

/-- **One action.**  Sessions that are alike perform an action alike. -/
theorem perform_until (hread : ReadUntil F R) (a : ReaderAction)
    (hclose : a = .close → RunUntil F R Reader.close Reader.close)
    (hsettings : a = .settings → ∀ ⦃r r'⦄, R r r' → r.settings = r'.settings)
    (h : SessionAlike R t u) (hrun : perform a t = some p) :
    PerformedUntil F R p (perform a u) := by
  cases a with
  | read times => exact perform_read_until hread times h hrun
  | skip times => exact perform_skip_until hread times h hrun
  | peek => exact doing_until (.total hread.peek) _ h hrun
  | precache => exact doing_until (.total hread.precache) _ h hrun
  | atEnd => exact doing_until (.total hread.atEnd) _ h hrun
  | drain k =>
    exact draining_until hread.characters (fun cs => (List.flatMap_singleton' cs).symm) h hrun
  | lines => exact draining_until hread.lines (fun _ => rfl) h hrun
  | wholeText => exact doing_until hread.wholeText _ h hrun
  | lineString => exact doing_until hread.lineString _ h hrun
  | keep name i =>
    cases hrun
    exact .alike ⟨rfl, rfl, keep_alike h name i⟩
  | advance name times => exact perform_advance_until hread name times h hrun
  | finish name =>
    cases hrun
    exact .alike ⟨rfl, rfl, keep_alike h name _⟩
  | settings =>
    cases hrun
    exact .alike ⟨by rw [hsettings rfl h.reader]; rfl, rfl, h⟩
  | close => exact doing_until (.total (hclose rfl)) _ h hrun

end ReaderSession

/-! ### Whole sessions -/

/-- What a step came to, whatever the view after it and the events during it: its result and its
error. -/
def Report.outcome {ρ ν : Type} : Report ρ ν → Option ρ × Option ReadError
  | .mk result _ failure _ _ => (result, failure)

/-- What was handed out is part of the outcome. -/
theorem Report.handed_eq_of_outcome {ν : Type} {report report' : Report ReaderResult ν}
    (h : report.outcome = report'.outcome) : report.handed = report'.handed := by
  cases report
  cases report'
  rw [handed, handed, (Prod.mk.inj h).1]

theorem handedOut_cons {ν : Type} (report : Report ReaderResult ν)
    (reports : List (Report ReaderResult ν)) :
    handedOut (report :: reports) = report.handed ++ handedOut reports := rfl

/-- A step that only uses the reader: it neither closes the stream nor tells the settings. -/
def Step.OnlyReads : Step ReaderAction → Prop
  | .act a => a ≠ .close ∧ a ≠ .settings
  | .within _ => False
  | .record _ => True

instance : DecidablePred Step.OnlyReads
  | .act a => inferInstanceAs (Decidable (a ≠ .close ∧ a ≠ .settings))
  | .within _ => inferInstanceAs (Decidable False)
  | .record _ => inferInstanceAs (Decidable True)

/-- The journals have no part in a relation between readers. -/
def JournalFree (R : Reader σ → Reader τ → Prop) : Prop :=
  ∀ ⦃r r'⦄, R r r' → ∀ j j', R { r with source.journal := j } { r' with source.journal := j' }

/-- The journal has no part in what stops a reader. -/
def StopsJournalFree (F : ReadError → Reader σ → Prop) : Prop :=
  ∀ ⦃e r⦄, F e r → ∀ j, F e { r with source.journal := j }

namespace Session

variable [InputStream CodePoint σ] [InputStream CodePoint τ] {t : ReaderSession σ}
  {u : ReaderSession τ}

omit [InputStream CodePoint τ] in
/-- The step with the index `k` met an error, and left a reader, as in `F`. -/
def StoppedAt (F : ReadError → Reader σ → Prop) (steps : List (Step ReaderAction))
    (t : ReaderSession σ) (reports : List (Report ReaderResult Position)) (k : Nat) : Prop :=
  ∃ e s, run (steps.take (k + 1)) t = some (reports.take (k + 1), s) ∧
    reports[k]?.bind Report.failure = some e ∧ F e s.reader

theorem setJournal_alike (hjournal : JournalFree R) (h : SessionAlike R t u) (j j' : Journal) :
    SessionAlike R (Subject.setJournal j t) (Subject.setJournal j' u) :=
  ⟨hjournal h.reader j j', h.iterators⟩

/-- **One step.**  Sessions that are alike do a step with the same outcome and are alike again,
unless the step is stopped in the first one. -/
theorem runStep_until (hread : ReadUntil F R) (hjournal : JournalFree R)
    (hstops : StopsJournalFree F) {step : Step ReaderAction} (hstep : step.OnlyReads)
    (h : SessionAlike R t u) {done : Report ReaderResult Position × _}
    (hrun : runStep step t = some done) :
    (∃ done', runStep step u = some done' ∧ done.1.outcome = done'.1.outcome ∧
      SessionAlike R done.2 done'.2) ∨
    ∃ e, done.1.failure = some e ∧ F e done.2.reader ∧
      ∀ done', runStep step u = some done' → done.1.handed <+: done'.1.handed := by
  cases step with
  | act a =>
    obtain ⟨p, hp, rfl⟩ := runStep_act_eq_some_iff.1 hrun
    obtain ⟨hclose, hsettings⟩ := hstep
    have huntil : PerformedUntil F R p (Subject.perform a u) :=
      ReaderSession.perform_until hread a (fun heq => absurd heq hclose)
        (fun heq => absurd heq hsettings) h hp
    cases hq : Subject.perform a u with
    | none =>
      rw [hq] at huntil
      cases huntil with
      | @stopped e _ hfailure hF hfront =>
        refine .inr ⟨e, hfailure, hstops hF _, fun done' hdone' => ?_⟩
        obtain ⟨q, hq', -⟩ := runStep_act_eq_some_iff.1 hdone'
        rw [hq] at hq'
        cases hq'
    | some q =>
      rw [hq] at huntil
      cases huntil with
      | alike halike =>
        refine .inl ⟨_, runStep_act_eq_some_iff.2 ⟨q, hq, rfl⟩, ?_, ?_⟩
        · show (p.result, p.failure) = (q.result, q.failure)
          rw [halike.result, halike.failure]
        · exact setJournal_alike hjournal halike.subject _ _
      | @stopped e _ hfailure hF hfront =>
        refine .inr ⟨e, hfailure, hstops hF _, fun done' hdone' => ?_⟩
        obtain ⟨q', hq', rfl⟩ := runStep_act_eq_some_iff.1 hdone'
        rw [hq] at hq'
        exact hfront q' hq'
  | within body => exact hstep.elim
  | record on =>
    obtain rfl := runStep_record_eq_some_iff.1 hrun
    refine .inl ⟨_, runStep_record_eq_some_iff.2 rfl, rfl, ?_⟩
    -- The journal is set twice: once by the step, and once when its report is made.
    exact setJournal_alike hjournal (setJournal_alike hjournal h _ _) _ _

/-- **All steps.**  Sessions that are alike have the same outcomes, step by step, unless a step is
stopped in the first one.  Then the steps before it have the same outcomes, and what was handed out
with it is the front of what the other session has handed out by then. -/
theorem run_until (hread : ReadUntil F R) (hjournal : JournalFree R) (hstops : StopsJournalFree F)
    {steps : List (Step ReaderAction)} (hsteps : ∀ step ∈ steps, step.OnlyReads)
    (h : SessionAlike R t u) {done : List (Report ReaderResult Position) × _}
    (hrun : run steps t = some done) :
    (∃ done', run steps u = some done' ∧ done.1.map Report.outcome = done'.1.map Report.outcome ∧
      SessionAlike R done.2 done'.2) ∨
    ∃ k, StoppedAt F steps t done.1 k ∧ ∀ done', run steps u = some done' →
      (done.1.take k).map Report.outcome = (done'.1.take k).map Report.outcome ∧
      handedOut (done.1.take (k + 1)) <+: handedOut (done'.1.take (k + 1)) := by
  induction steps generalizing t u done with
  | nil =>
    cases hrun
    exact .inl ⟨_, rfl, rfl, h⟩
  | cons step steps ih =>
    obtain ⟨first, rest, hfirst, hrest, rfl⟩ := run_cons_eq_some_iff.1 hrun
    rcases runStep_until hread hjournal hstops (hsteps step List.mem_cons_self) h hfirst with
      ⟨first', hfirst', houtcome, halike⟩ | ⟨e, hfailure, hF, hfront⟩
    · have hhanded : first.1.handed = first'.1.handed := Report.handed_eq_of_outcome houtcome
      rcases ih (fun step hmem => hsteps step (List.mem_cons_of_mem _ hmem)) halike hrest with
        ⟨rest', hrest', houtcomes, halike'⟩ | ⟨k, ⟨e, s, hreached, hfailure, hF⟩, hfront⟩
      · refine .inl ⟨_, run_cons_eq_some_iff.2 ⟨first', rest', hfirst', hrest', rfl⟩, ?_, halike'⟩
        rw [List.map_cons, List.map_cons, houtcome, houtcomes]
      · refine .inr ⟨k + 1, ⟨e, s, ?_, hfailure, hF⟩, fun done' hdone' => ?_⟩
        · exact run_cons_eq_some_iff.2 ⟨first, _, hfirst, hreached, rfl⟩
        · obtain ⟨first'', rest', hfirst'', hrest', rfl⟩ := run_cons_eq_some_iff.1 hdone'
          rw [hfirst'] at hfirst''
          obtain rfl := Option.some.inj hfirst''
          obtain ⟨houtcomes, hhandedOut⟩ := hfront rest' hrest'
          rw [List.take_succ_cons, List.take_succ_cons, List.take_succ_cons, List.take_succ_cons]
          constructor
          · rw [List.map_cons, List.map_cons, houtcome, houtcomes]
          · rw [handedOut_cons, handedOut_cons, hhanded, List.prefix_append_right_inj]
            exact hhandedOut
    · refine .inr ⟨0, ⟨e, first.2, ?_, hfailure, hF⟩, fun done' hdone' => ⟨rfl, ?_⟩⟩
      · exact run_cons_eq_some_iff.2 ⟨first, ([], first.2), hfirst, rfl, rfl⟩
      · obtain ⟨first', rest', hfirst', hrest', rfl⟩ := run_cons_eq_some_iff.1 hdone'
        show first.1.handed ++ [] <+: first'.1.handed ++ []
        rw [List.append_nil, List.append_nil]
        exact hfront first' hfirst'

/-- Sessions whose readers run alike throughout have the same outcomes, step by step. -/
theorem run_alike (hread : ReadAlike R) (hjournal : JournalFree R)
    {steps : List (Step ReaderAction)} (hsteps : ∀ step ∈ steps, step.OnlyReads)
    (h : SessionAlike R t u)
    {done : List (Report ReaderResult Position) × _} (hrun : run steps t = some done) :
    ∃ done', run steps u = some done' ∧ done.1.map Report.outcome = done'.1.map Report.outcome ∧
      SessionAlike R done.2 done'.2 := by
  have huntil : ReadUntil (fun _ _ => False) R := hread.until
  rcases run_until huntil hjournal (fun _ _ hF _ => hF) hsteps h hrun with
    halike | ⟨_, ⟨_, _, _, _, hF⟩, _⟩
  · exact halike
  · exact hF.elim

end Session

end PlacedText
