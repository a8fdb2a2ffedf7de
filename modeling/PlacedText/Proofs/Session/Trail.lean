import PlacedText.Proofs.Reader.Trail
import PlacedText.Proofs.Session.Alike
import PlacedText.Session.Source

/-!
# The trail of a session

What a session does to its subject is made of actions, of closings at the end of blocks and of
settings of the journal.  A relation between subjects that covers these three, and that is reflexive
and transitive, covers every step and every session (`Session.Covers.run`).

A session on a reader therefore runs along a trail of the reader (`Session.run_along`).  The reports
show characters of the trail, in its order; and they show all of them if the steps do and no step
has lost some in an error over a string.
-/

namespace PlacedText

namespace Session

/-! ### Relations that cover sessions -/

section Covers

variable {τ α ρ ν : Type} [Subject τ α ρ ν]

/-- A relation between subjects that covers whatever a session does to its subject. -/
structure Covers (K : τ → τ → Prop) : Prop where
  refl : ∀ t, K t t
  trans : ∀ {t u v}, K t u → K u v → K t v
  perform : ∀ {a : α} {t : τ} {p : Performed τ ρ}, Subject.perform a t = some p → K t p.subject
  close : ∀ t, K t (Running.endState (Subject.close t))
  setJournal : ∀ j t, K t (Subject.setJournal j t)

namespace Covers

variable {K : τ → τ → Prop}

/-- A report clears the journal and does nothing else. -/
theorem report (hK : Covers K) {t u : τ} (h : K t u) (result : Option ρ)
    (block : Option (List (Report ρ ν))) (failure : Option ReadError) :
    K t (Session.report result block failure u).2 :=
  hK.trans h (hK.setJournal _ u)

mutual

theorem runStep (hK : Covers K) :
    ∀ (step : Step α) {t : τ} {done : Report ρ ν × τ}, Session.runStep step t = some done →
      K t done.2
  | .act a, t, done, hrun => by
    obtain ⟨p, hp, rfl⟩ := runStep_act_eq_some_iff.1 hrun
    exact hK.report (hK.perform hp) _ _ _
  | .within body, t, done, hrun => by
    obtain ⟨last, hbody, rfl⟩ := runStep_within_eq_some_iff.1 hrun
    rw [leave_eq]
    exact hK.report (hK.trans (runBlock hK body hbody) (hK.close _)) _ _ _
  | .record on, t, done, hrun => by
    obtain rfl := runStep_record_eq_some_iff.1 hrun
    exact hK.report (hK.setJournal _ t) _ _ _

theorem runBlock (hK : Covers K) :
    ∀ (steps : List (Step α)) {t : τ} {done : List (Report ρ ν) × τ},
      Session.runBlock steps t = some done → K t done.2
  | [], t, done, hrun => by
    obtain rfl := runBlock_nil_eq_some_iff.1 hrun
    exact hK.refl t
  | step :: steps, t, done, hrun => by
    -- After an error the rest of the block is not done.
    obtain ⟨first, hfirst, ⟨-, rfl⟩ | ⟨-, rest, hrest, rfl⟩⟩ := runBlock_cons_eq_some_iff.1 hrun
    · exact runStep hK step hfirst
    · have hstep : K t first.2 := runStep hK step hfirst
      have hothers : K first.2 rest.2 := runBlock hK steps hrest
      exact hK.trans hstep hothers

end

/-- A relation that covers the steps covers the session. -/
theorem run (hK : Covers K) {steps : List (Step α)} {t : τ} {done : List (Report ρ ν) × τ}
    (hrun : Session.run steps t = some done) : K t done.2 := by
  induction steps generalizing t done with
  | nil =>
    cases hrun
    exact hK.refl t
  | cons step steps ih =>
    obtain ⟨first, rest, hfirst, hrest, rfl⟩ := run_cons_eq_some_iff.1 hrun
    have hothers : K first.2 rest.2 := ih hrest
    exact hK.trans (hK.runStep step hfirst) hothers

end Covers

end Covers

end Session

/-! ### Sessions on a reader -/

open Reader

variable {σ β : Type} [InputStream CodePoint σ]

/-- A step of which the report shows all that was read, if it met no error.  Skipping shows only the
last character, and what is read in a block is shown in the reports of the block. -/
def Step.TellsAll : Step ReaderAction → Bool
  | .act (.skip _) => false
  | .act _ => true
  | .within _ => false
  | .record _ => true

/-- Whether a step keeps an iterator that takes lines under the name. -/
def Step.keepsLines (name : Text) : Step ReaderAction → Bool
  | .act (.keep name' .lines) => name' = name
  | _ => false

/-- A step that takes single characters, of which none is lost in an error.  The iterators that take
lines are kept under names of which `lined` tells so. -/
def Step.TakesSingly (lined : Text → Bool) : Step ReaderAction → Bool
  | .act .lines => false
  | .act .wholeText => false
  | .act .lineString => false
  | .act (.advance name _) => !lined name
  | .act _ => true
  | .within _ => false
  | .record _ => true

namespace ReaderSession

variable {t : ReaderSession σ} {p : Performed (ReaderSession σ) ReaderResult}
  {lined : Text → Bool}

/-- What is known of an action on a reader: it runs along a trail `cs`, of which it shows some
characters in their order; and it shows all of them if it tells all and either met no error or took
single characters.  It keeps iterators that take lines under the names it says. -/
structure PerformsAlong (lined : Text → Bool) (a : ReaderAction) (t : ReaderSession σ)
    (p : Performed (ReaderSession σ) ReaderResult) (cs : List PlacedChar) : Prop where
  trail : Trail t.reader cs p.subject.reader
  shown : p.handed.Sublist cs
  all : (Step.act a).TellsAll → t.KeepsLinesUnder lined →
    p.failure = none ∨ (Step.act a).TakesSingly lined → p.handed = cs
  keeps : (∀ name, (Step.act a).keepsLines name → lined name) → t.KeepsLinesUnder lined →
    p.subject.KeepsLinesUnder lined

/-- An action that shows all characters of its trail but those lost in an error. -/
theorem PerformsAlong.of_lost {a : ReaderAction} (lost : List PlacedChar)
    (htrail : Trail t.reader (p.handed ++ lost) p.subject.reader)
    (hlost : t.KeepsLinesUnder lined → p.failure = none ∨ (Step.act a).TakesSingly lined →
      lost = [])
    (hkeeps : t.KeepsLinesUnder lined → p.subject.KeepsLinesUnder lined) :
    PerformsAlong lined a t p (p.handed ++ lost) where
  trail := htrail
  shown := List.sublist_append_left _ _
  all _ ht h := by rw [hlost ht h, List.append_nil]
  keeps _ := hkeeps

theorem doing_along {a : ReaderAction} {careful : Prop} {x : DrainM σ β}
    {chars : β → List PlacedChar} (hx : Trailing careful chars x)
    (hcareful : (Step.act a).TakesSingly lined → careful) (result : β → ReaderResult)
    (hresult : ∀ b, (result b).handed = chars b) (hrun : doing x result t = some p) :
    ∃ cs, PerformsAlong lined a t p cs := by
  obtain ⟨ended, hended, rfl⟩ := Option.map_eq_some_iff.1 hrun
  cases hx hended with
  | @ok b r' htrail =>
    have hhanded : (t.performed result (.ok b r')).handed ++ [] = chars b := by
      rw [List.append_nil, ← hresult]
      exact List.append_nil _
    rw [← hhanded] at htrail
    exact ⟨_, .of_lost _ htrail (fun _ _ => rfl) id⟩
  | @error e lost r' htrail hkept =>
    refine ⟨_, .of_lost lost htrail ?_ id⟩
    rintro - (hfailure | hsingly)
    · cases hfailure
    · exact hkept (hcareful hsingly)

theorem draining_along {a : ReaderAction} {κ : Type} {careful : Prop} {q : Producer σ κ β} {k : κ}
    {chars : β → List PlacedChar} (hq : ∀ k, Trailing careful (stepChars chars) (q k))
    (hcareful : (Step.act a).TakesSingly lined → careful) (result : List β → ReaderResult)
    (hresult : ∀ bs, (result bs).handed = bs.flatMap chars) (hrun : draining q k result t = some p) :
    ∃ cs, PerformsAlong lined a t p cs := by
  obtain ⟨d, hd, rfl⟩ := Option.map_eq_some_iff.1 hrun
  obtain ⟨lost, htrail, hlost⟩ := Producer.drain_trail hq hd
  rw [← hresult, ← List.append_nil (result d.items).handed] at htrail
  exact ⟨_, .of_lost _ htrail
    (fun _ h => hlost (h.elim .inr fun hsingly => .inl (hcareful hsingly))) id⟩

/-- Reading a number of characters takes out those that were read, and loses none. -/
theorem readOnto_trail (times : Nat) :
    ∀ (taken : List PlacedChar) (r : Reader σ), ∃ given,
      (readOnto taken r times).items = taken.reverse ++ given ∧
      Trail r given (readOnto taken r times).reader := by
  induction times with
  | zero => exact fun taken r => ⟨[], (List.append_nil _).symm, .stay r⟩
  | succ times ih =>
    intro taken r
    have htrailed : Trailed True (fun c => [c]) r (Reader.read r) := Reader.read_trailing rfl
    rw [readOnto]
    cases hread : Reader.read r with
    | error e r' =>
      rw [hread] at htrailed
      cases htrailed with
      | error htrail hkept =>
        rw [hkept trivial] at htrail
        exact ⟨[], (List.append_nil _).symm, htrail⟩
    | ok c r' =>
      rw [hread] at htrailed
      cases htrailed with
      | ok htrail =>
        obtain ⟨given, hitems, htrail'⟩ := ih (c :: taken) r'
        refine ⟨c :: given, ?_, htrail.trans htrail'⟩
        rw [hitems, List.reverse_cons, List.append_assoc, List.singleton_append]

/-- **One action.**  Every action on a reader runs along a trail. -/
theorem perform_along (lined : Text → Bool) {a : ReaderAction} (hrun : perform a t = some p) :
    ∃ cs, PerformsAlong lined a t p cs := by
  cases a with
  | read times =>
    cases hrun
    obtain ⟨given, hitems, htrail⟩ := readOnto_trail times [] t.reader
    obtain rfl : (readOnto [] t.reader times).items = given := hitems
    rw [← List.append_nil (readOnto [] t.reader times).items,
      ← List.append_nil (readOnto [] t.reader times).items] at htrail
    exact ⟨_, .of_lost _ htrail (fun _ _ => rfl) id⟩
  | skip times =>
    cases hrun
    obtain ⟨given, hitems, htrail⟩ := readOnto_trail times [] t.reader
    refine ⟨given, htrail, ?_, (fun h => by cases h), fun _ => id⟩
    -- A skip shows one character at most, and that as one that was looked at.
    have hnothing : ∀ result : Option PlacedChar,
        (result.map ReaderResult.char).toList.flatMap ReaderResult.handed = [] := by
      intro result
      cases result <;> rfl
    show List.Sublist (Option.toList (if _ then none else _) |>.flatMap _) given
    split
    · exact List.nil_sublist _
    · rw [hnothing]
      exact List.nil_sublist _
  | peek => exact doing_along Reader.peek_trailing (fun _ => trivial) _ (fun _ => rfl) hrun
  | precache => exact doing_along Reader.precache_trailing (fun _ => trivial) _ (fun _ => rfl) hrun
  | atEnd => exact doing_along Reader.atEnd_trailing (fun _ => trivial) _ (fun _ => rfl) hrun
  | drain k =>
    exact draining_along Producer.characters_trailing (fun _ => trivial) .chars
      (fun cs => (List.flatMap_singleton' cs).symm) hrun
  | lines => exact draining_along Producer.lines_trailing (fun h => by cases h) _ (fun _ => rfl) hrun
  | wholeText =>
    refine doing_along Reader.wholeText_trailing (fun h => by cases h) _ (fun s => ?_) hrun
    cases s with
    | none => rfl
    | some s => exact (List.append_nil s.chars).symm
  | lineString =>
    exact doing_along Reader.lineString_trailing (fun h => by cases h) _ (fun _ => rfl) hrun
  | keep name i =>
    cases hrun
    refine ⟨[], .stay _, List.Sublist.refl _, fun _ _ _ => rfl, fun hlined ht => ht.keep ?_⟩
    rintro rfl
    exact hlined name (decide_eq_true rfl)
  | advance name times =>
    obtain ⟨advance, hadvance, rfl⟩ := Option.map_eq_some_iff.1 hrun
    obtain ⟨given, lost, hitems, htrail, hlost, hstays⟩ :=
      Iterator.advanceOnto_trail times [] _ hadvance
    obtain rfl : advance.items = given := hitems
    rw [← List.append_nil (advance.items.flatMap Item.chars)] at htrail
    refine ⟨_, .of_lost _ htrail ?_ fun ht => ?_⟩
    · rintro ht (hfailure | hsingly)
      · exact hlost (.inr hfailure)
      · refine hlost (.inl fun hi => ?_)
        rw [Step.TakesSingly, ht.lined_of_iterator hi] at hsingly
        cases hsingly
    · refine KeepsLinesUnder.keep (t := { t with reader := advance.reader }) ht fun hi => ?_
      -- Only an iterator that takes lines becomes one.
      exact ht.lined_of_iterator (Decidable.byContradiction fun h => hstays h hi)
  | finish name =>
    cases hrun
    exact ⟨[], .stay _, List.Sublist.refl _, fun _ _ _ => rfl,
      fun _ ht => ht.keep fun hi => by cases hi⟩
  | settings =>
    cases hrun
    exact ⟨[], .stay _, List.Sublist.refl _, fun _ _ _ => rfl, fun _ => id⟩
  | close => exact doing_along Reader.close_trailing (fun _ => trivial) _ (fun _ => rfl) hrun

end ReaderSession

/-! ### Whole sessions -/

namespace Session

variable {t : ReaderSession σ}

/-- That a trail leads from one reader to the other covers whatever a session does. -/
theorem covers_trail :
    Covers fun t u : ReaderSession σ => ∃ cs, Trail t.reader cs u.reader where
  refl t := ⟨[], .stay t.reader⟩
  trans := by
    rintro t u v ⟨cs, htrail⟩ ⟨ds, htrail'⟩
    exact ⟨cs ++ ds, htrail.trans htrail'⟩
  perform hp := by
    obtain ⟨cs, halong⟩ := ReaderSession.perform_along (fun _ => true) hp
    exact ⟨cs, halong.trail⟩
  close t := by
    rw [ReaderSession.endState_close]
    exact ⟨[], .of_move (.close t.reader)⟩
  setJournal j t := ⟨[], .of_move (.note t.reader j)⟩

/-- What is known of some steps of a session: they run along a trail `cs`, of which the reports show
some characters in their order; and they show all of them if the steps tell all, and those that met
an error took single characters. -/
structure RunsAlong (lined : Text → Bool) (steps : List (Step ReaderAction)) (t : ReaderSession σ)
    (reports : List (Report ReaderResult Position)) (u : ReaderSession σ)
    (cs : List PlacedChar) : Prop where
  trail : Trail t.reader cs u.reader
  shown : (handedOut reports).Sublist cs
  all : (∀ step ∈ steps, step.TellsAll) →
    (∀ step ∈ steps, ∀ name, step.keepsLines name → lined name) → t.KeepsLinesUnder lined →
    (∀ x ∈ steps.zip reports, x.2.failure = none ∨ x.1.TakesSingly lined) → handedOut reports = cs

variable {lined : Text → Bool}

/-- **One step.**  Unless the step is a block, it keeps iterators that take lines under the names it
says. -/
theorem runStep_along (lined : Text → Bool) {step : Step ReaderAction}
    {done : Report ReaderResult Position × _} (hrun : runStep step t = some done) :
    ∃ cs, RunsAlong lined [step] t [done.1] done.2 cs ∧
      (step.TellsAll → (∀ name, step.keepsLines name → lined name) → t.KeepsLinesUnder lined →
        done.2.KeepsLinesUnder lined) := by
  cases step with
  | act a =>
    obtain ⟨p, hp, rfl⟩ := runStep_act_eq_some_iff.1 hrun
    obtain ⟨cs, htrail, hshown, hall, hkeeps⟩ := ReaderSession.perform_along lined hp
    have hhanded : handedOut [(report p.result none p.failure p.subject).1] = p.handed :=
      List.append_nil _
    refine ⟨cs, ⟨?_, ?_, fun htells _ ht h => ?_⟩, fun _ => hkeeps⟩
    · rw [← List.append_nil cs]
      exact htrail.trans (.of_move (.note _ _))
    · rw [hhanded]
      exact hshown
    · rw [hhanded]
      exact hall (htells _ List.mem_cons_self) ht (h _ List.mem_cons_self)
  | within body =>
    obtain ⟨cs, htrail⟩ := covers_trail.runStep _ hrun
    have hnothing : done.1.handed = [] := by
      obtain ⟨last, -, rfl⟩ := runStep_within_eq_some_iff.1 hrun
      rw [leave_eq]
      rfl
    refine ⟨cs, ⟨htrail, ?_, fun htells => ?_⟩, fun htells => by cases htells⟩
    · rw [handedOut, List.flatMap_singleton, hnothing]
      exact List.nil_sublist cs
    · exact absurd (htells _ List.mem_cons_self) Bool.false_ne_true
  | record on =>
    obtain rfl := runStep_record_eq_some_iff.1 hrun
    exact ⟨[], ⟨(Trail.of_move (.note _ _)).after (.of_move (.note _ _)), List.Sublist.refl _,
      fun _ _ _ _ => rfl⟩, fun _ _ => id⟩

/-- **All steps.**  A session on a reader runs along a trail. -/
theorem run_along (lined : Text → Bool) {steps : List (Step ReaderAction)}
    {done : List (Report ReaderResult Position) × _} (hrun : run steps t = some done) :
    ∃ cs, RunsAlong lined steps t done.1 done.2 cs := by
  induction steps generalizing t done with
  | nil =>
    cases hrun
    exact ⟨[], .stay _, List.Sublist.refl _, fun _ _ _ _ => rfl⟩
  | cons step steps ih =>
    obtain ⟨first, rest, hfirst, hrest, rfl⟩ := run_cons_eq_some_iff.1 hrun
    obtain ⟨cs, hstep, hkeeps⟩ := runStep_along lined hfirst
    obtain ⟨ds, hsteps⟩ := ih hrest
    have hhanded : handedOut (first.1 :: rest.1) = handedOut [first.1] ++ handedOut rest.1 := by
      rw [handedOut_cons, handedOut_cons, List.append_assoc]
      rfl
    refine ⟨cs ++ ds, hstep.trail.trans hsteps.trail, ?_, fun htells hlined ht hcareful => ?_⟩
    · rw [hhanded]
      exact hstep.shown.append hsteps.shown
    · obtain ⟨htells₁, htells₂⟩ := List.forall_mem_cons.1 htells
      obtain ⟨hlined₁, hlined₂⟩ := List.forall_mem_cons.1 hlined
      obtain ⟨hcareful₁, hcareful₂⟩ := List.forall_mem_cons.1 hcareful
      rw [hhanded, hstep.all (List.forall_mem_singleton.2 htells₁)
          (List.forall_mem_singleton.2 hlined₁) ht (List.forall_mem_singleton.2 hcareful₁),
        hsteps.all htells₂ hlined₂ (hkeeps htells₁ hlined₁ ht) hcareful₂]

/-- The trail of a session, of which its reports show all if its steps do and none met an error. -/
theorem run_trail {steps : List (Step ReaderAction)}
    {done : List (Report ReaderResult Position) × _} (hrun : run steps t = some done) :
    ∃ cs, Trail t.reader cs done.2.reader ∧ (handedOut done.1).Sublist cs ∧
      ((∀ step ∈ steps, step.TellsAll) → (∀ report ∈ done.1, report.failure = none) →
        handedOut done.1 = cs) := by
  obtain ⟨cs, htrail, hshown, hall⟩ := run_along (fun _ => true) hrun
  refine ⟨cs, htrail, hshown, fun htells hnone => ?_⟩
  exact hall htells (fun _ _ _ _ => rfl) (fun _ _ _ => rfl) fun x hx =>
    .inl (hnone x.2 (List.of_mem_zip hx).2)

end Session

end PlacedText
