import PlacedText.Proofs.Reader.Looking
import PlacedText.Proofs.Session.Meeting
import PlacedText.Proofs.Session.Trail

/-!
# Looking changes no session

Take the steps that only look out of a session, and the others come to what they came to before
(`looking_changes_nothing`).  A look leaves a reader that looks like the one before, and on readers
that look alike all other steps come to the same.

What a look has shown is handed out next.  On a reader that meets no fault an action loses nothing
in an error, so that what reports show is the whole trail (`Session.run_tells`), and a trail begins
with what is queued first (`Reader.Trail.head_of_queue`).
-/

namespace PlacedText

variable {σ β : Type} [InputStream CodePoint σ] {limit : Nat} {c : PlacedChar}

/-- A step that only looks. -/
def Step.Looks : Step ReaderAction → Bool
  | .act .peek => true
  | .act .precache => true
  | .act .atEnd => true
  | _ => false

/-- The steps that do not only look. -/
def withoutLooks (steps : List (Step ReaderAction)) : List (Step ReaderAction) :=
  steps.filter fun step => !step.Looks

/-- What these steps came to in a session. -/
def outcomesWithoutLooks {ν : Type} (steps : List (Step ReaderAction))
    (reports : List (Report ReaderResult ν)) : List (Option ReaderResult × Option ReadError) :=
  ((steps.zip reports).filter fun x => !x.1.Looks).map fun x => x.2.outcome

/-! ### Without the looks -/

/-- Looking ends as taking in does. -/
theorem Reader.endState_peek {r : Reader σ} (h : r.Sound limit) :
    Running.endState (Reader.peek r) = r.settled := by
  rcases prospect_of_sound h with ⟨-, hprecache, -⟩ | ⟨r₁, c, queue, -, hprecache, hqueue⟩
  · rw [peek_of_precache_error hprecache, Running.endState]
  · rw [peek_of_precache hprecache hqueue, Running.endState]

namespace ReaderSession

variable {t u : ReaderSession σ} {p : Performed (ReaderSession σ) ReaderResult}

/-- A look leaves a session that looks like the one before. -/
theorem perform_look {a : ReaderAction} (ha : (Step.act a).Looks)
    (h : SessionAlike (Reader.LooksAlike limit) t u) :
    ∃ p, perform a t = some p ∧ SessionAlike (Reader.LooksAlike limit) p.subject u := by
  have hsettled : t.reader.settled.LooksAlike limit u.reader :=
    h.reader.of_settled_eq (Reader.bears_sound.fill h.reader.sound)
      (Reader.settled_settled h.reader.sound)
  cases a with
  | peek =>
    refine ⟨_, rfl, ?_, ?_⟩
    · rw [subject_performed, Reader.endState_peek h.reader.sound]
      exact hsettled
    · rw [subject_performed]
      exact h.iterators
  | precache =>
    refine ⟨_, rfl, ?_, ?_⟩
    · rw [subject_performed]
      exact hsettled
    · rw [subject_performed]
      exact h.iterators
  | atEnd =>
    obtain ⟨r, hend, hr, hsame⟩ := Reader.atEnd_of_sound h.reader.sound
    refine ⟨_, rfl, ?_, ?_⟩
    · rw [subject_performed, hend]
      exact h.reader.of_settled_eq hr hsame
    · rw [subject_performed]
      exact h.iterators
  | _ => cases ha

end ReaderSession

namespace Session

variable {t u : ReaderSession σ} {steps : List (Step ReaderAction)}

theorem journalFree_looksAlike : JournalFree (Reader.LooksAlike (σ := σ) limit) :=
  fun _ _ h j j' => h.of_journal j j'

/-- A step that looks leaves a session that looks like the one before. -/
theorem runStep_look {step : Step ReaderAction} (hstep : step.Looks)
    (h : SessionAlike (Reader.LooksAlike limit) t u) :
    ∃ done : Report ReaderResult Position × _, runStep step t = some done ∧
      SessionAlike (Reader.LooksAlike limit) done.2 u := by
  cases step with
  | act a =>
    obtain ⟨p, hp, halike⟩ := ReaderSession.perform_look hstep h
    refine ⟨_, runStep_act_eq_some_iff.2 ⟨p, hp, rfl⟩, ?_⟩
    exact setJournal_alike journalFree_looksAlike halike _ u.reader.source.journal
  | within body => cases hstep
  | record on => cases hstep

/-- Any other step comes to the same. -/
theorem runStep_beside_looks {step : Step ReaderAction} (hreads : step.OnlyReads)
    (h : SessionAlike (Reader.LooksAlike limit) t u) {done : Report ReaderResult Position × _}
    (hrun : runStep step t = some done) :
    ∃ done', runStep step u = some done' ∧ done.1.outcome = done'.1.outcome ∧
      SessionAlike (Reader.LooksAlike limit) done.2 done'.2 := by
  have hread : ReadUntil (fun _ _ => False) (Reader.LooksAlike (σ := σ) limit) :=
    Reader.readAlike_looksAlike.until
  rcases runStep_until hread journalFree_looksAlike (fun _ _ hF _ => hF) hreads h hrun with
    halike | ⟨_, _, hfalse, _⟩
  · exact halike
  · exact hfalse.elim

theorem symm_looksAlike (h : SessionAlike (Reader.LooksAlike limit) t u) :
    SessionAlike (Reader.LooksAlike limit) u t := ⟨h.reader.symm, h.iterators.symm⟩

/-- If the session ends, it ends without the looks, and the other steps come to the same. -/
theorem run_without_looks (hsteps : ∀ step ∈ steps, step.OnlyReads)
    (h : SessionAlike (Reader.LooksAlike limit) t u)
    {done : List (Report ReaderResult Position) × _} (hrun : run steps t = some done) :
    ∃ done', run (withoutLooks steps) u = some done' ∧
      outcomesWithoutLooks steps done.1 = done'.1.map Report.outcome := by
  induction steps generalizing t u done with
  | nil =>
    cases hrun
    exact ⟨_, rfl, rfl⟩
  | cons step steps ih =>
    obtain ⟨hstep, hothers⟩ := List.forall_mem_cons.1 hsteps
    obtain ⟨first, rest, hfirst, hrest, rfl⟩ := run_cons_eq_some_iff.1 hrun
    cases hlooks : step.Looks with
    | true =>
      -- The look is left out, and the rest goes on from a session that looks the same.
      obtain ⟨first', hfirst', halike⟩ := runStep_look hlooks h
      rw [hfirst] at hfirst'
      obtain rfl := Option.some.inj hfirst'
      obtain ⟨done', hrun', houtcomes⟩ := ih hothers halike hrest
      refine ⟨done', ?_, ?_⟩
      · rw [withoutLooks, List.filter_cons_of_neg (by simp [hlooks])]
        exact hrun'
      · rw [← houtcomes, outcomesWithoutLooks, List.zip_cons_cons,
          List.filter_cons_of_neg (by simp [hlooks])]
        rfl
    | false =>
      obtain ⟨first', hfirst', houtcome, halike⟩ := runStep_beside_looks hstep h hfirst
      obtain ⟨rest', hrest', houtcomes⟩ := ih hothers halike hrest
      refine ⟨(first'.1 :: rest'.1, rest'.2), ?_, ?_⟩
      · rw [withoutLooks, List.filter_cons_of_pos (by simp [hlooks])]
        exact run_cons_eq_some_iff.2 ⟨first', rest', hfirst', hrest', rfl⟩
      · rw [outcomesWithoutLooks, List.zip_cons_cons, List.filter_cons_of_pos (by simp [hlooks]),
          List.map_cons, List.map_cons, houtcome, ← houtcomes]
        rfl

/-- If the session ends without the looks, it ends with them. -/
theorem run_with_looks (hsteps : ∀ step ∈ steps, step.OnlyReads)
    (h : SessionAlike (Reader.LooksAlike limit) t u)
    {done' : List (Report ReaderResult Position) × _}
    (hrun : run (withoutLooks steps) u = some done') :
    ∃ done : List (Report ReaderResult Position) × _, run steps t = some done := by
  induction steps generalizing t u done' with
  | nil => exact ⟨_, rfl⟩
  | cons step steps ih =>
    obtain ⟨hstep, hothers⟩ := List.forall_mem_cons.1 hsteps
    cases hlooks : step.Looks with
    | true =>
      rw [withoutLooks, List.filter_cons_of_neg (by simp [hlooks])] at hrun
      obtain ⟨first, hfirst, halike⟩ := runStep_look hlooks h
      obtain ⟨rest, hrest⟩ := ih hothers halike hrun
      exact ⟨_, run_cons_eq_some_iff.2 ⟨first, rest, hfirst, hrest, rfl⟩⟩
    | false =>
      rw [withoutLooks, List.filter_cons_of_pos (by simp [hlooks])] at hrun
      obtain ⟨first', rest', hfirst', hrest', -⟩ := run_cons_eq_some_iff.1 hrun
      obtain ⟨first, hfirst, -, halike⟩ :=
        runStep_beside_looks hstep (symm_looksAlike h) hfirst'
      obtain ⟨rest, hrest⟩ := ih hothers (symm_looksAlike halike) hrest'
      exact ⟨_, run_cons_eq_some_iff.2 ⟨first, rest, hfirst, hrest, rfl⟩⟩

end Session

/-! ### What a look has shown -/

open Reader

/-- Along a trail, the first character that is queued is the first one to be taken out. -/
theorem Reader.Trail.head_of_queue {r r' : Reader σ} {cs queue : List PlacedChar}
    (htrail : Trail r cs r') (hqueue : r.queue = c :: queue) :
    cs.head? = some c ∨ cs = [] ∧ ∃ queue', r'.queue = c :: queue' := by
  induction htrail generalizing queue with
  | stay r => exact .inr ⟨rfl, queue, hqueue⟩
  | @move r₀ _ _ _ _ hmove _ ih =>
    cases hmove with
    | ask =>
      obtain ⟨s, hs⟩ := exists_endState_atEnd r₀
      rw [hs] at ih
      exact ih hqueue
    | fill =>
      rw [precache_of_queue_cons hqueue] at ih
      exact ih hqueue
    | take hqueued =>
      rw [hqueue] at hqueued
      cases hqueued
      exact .inl rfl
    | close => exact ih hqueue
    | note j => exact ih hqueue

namespace ReaderSession

variable {t : ReaderSession σ} {p : Performed (ReaderSession σ) ReaderResult}

/-- A careful action takes out what it shows. -/
theorem doing_tells {x : DrainM σ β} {chars : β → List PlacedChar} (hx : Trailing True chars x)
    {result : β → ReaderResult} (hresult : ∀ b, (result b).handed = chars b)
    (hrun : doing x result t = some p) : Trail t.reader p.handed p.subject.reader := by
  obtain ⟨ended, hended, rfl⟩ := Option.map_eq_some_iff.1 hrun
  cases hx hended with
  | @ok b r' htrail =>
    have hhanded : (t.performed result (.ok b r')).handed = chars b := by
      rw [← hresult]
      exact List.append_nil _
    rw [hhanded]
    exact htrail
  | error htrail hkept =>
    rw [hkept trivial] at htrail
    exact htrail

/-- A character that was shown is queued first. -/
theorem exists_queue_of_shown (hrun : perform .peek t = some p)
    (hresult : p.result = some (.char c)) : ∃ queue, p.subject.reader.queue = c :: queue := by
  obtain rfl : t.performed .char (Reader.peek t.reader) = p := Option.some.inj hrun
  cases hprecache : precache t.reader with
  | error e r' =>
    rw [peek_of_precache_error hprecache] at hresult
    cases hresult
  | ok u r' =>
    obtain ⟨d, queue, hqueue⟩ := exists_queue_of_precache hprecache
    have hpeek : Reader.peek t.reader = .ok d r' := peek_of_precache hprecache hqueue
    rw [hpeek] at hresult
    cases hresult
    refine ⟨queue, ?_⟩
    rw [subject_performed, hpeek]
    exact hqueue

/-- **One action.**  On a reader that meets no fault, an action that tells all takes out what it
shows, whether or not it ends with an error. -/
theorem perform_tells {a : ReaderAction} (ha : (Step.act a).TellsAll) (h : t.reader.Sound limit)
    (hrun : perform a t = some p) : Trail t.reader p.handed p.subject.reader := by
  by_cases hopen : a = .close
  · subst hopen
    exact doing_tells close_trailing (fun _ => rfl) hrun
  cases hfailure : p.failure with
  | none =>
    obtain ⟨cs, halong⟩ := perform_along (fun _ => true) hrun
    rw [halong.all ha (fun _ _ _ => rfl) (.inl hfailure)]
    exact halong.trail
  | some e =>
    have hmay : a.MayMeet (fun _ => False) (fun _ => False) e :=
      (perform_meets bears_sound (fun hclose => absurd hclose hopen) h hrun).2 e hfailure
    have hnone : ¬e.FaultIn fun _ => False := fun ⟨_, _, hfalse⟩ => hfalse
    -- Only a few actions can fail here, and none of them has taken anything out that is not shown.
    cases a with
    | read times =>
      cases hrun
      obtain ⟨given, hitems, htrail⟩ := readOnto_trail times [] t.reader
      obtain rfl : (readOnto [] t.reader times).items = given := hitems
      rw [← List.append_nil (readOnto [] t.reader times).items] at htrail
      exact htrail
    | skip times => cases ha
    | peek => exact doing_tells peek_trailing (fun _ => rfl) hrun
    | precache => exact doing_tells precache_trailing (fun _ => rfl) hrun
    | lineString =>
      obtain rfl : e = .emptyString := hmay.resolve_right hnone
      obtain ⟨ended, hended, rfl⟩ := Option.map_eq_some_iff.1 hrun
      cases ended with
      | ok s r' => cases hfailure
      | error e r' =>
        cases hfailure
        have htrail : Trail t.reader [] (Running.endState (Reader.atEnd t.reader)) :=
          .of_move (.ask t.reader)
        rw [lineString_eq_emptyString_iff.1 hended] at htrail
        exact htrail
    | atEnd => exact absurd hmay hnone
    | drain k => exact absurd hmay hnone
    | lines => exact absurd hmay hnone
    | wholeText => exact absurd hmay hnone
    | advance name times => exact absurd hmay hnone
    | keep name i => exact hmay.elim
    | finish name => exact hmay.elim
    | settings => exact hmay.elim
    | close => exact absurd rfl hopen

end ReaderSession

namespace Session

variable {t : ReaderSession σ} {steps : List (Step ReaderAction)}

theorem runStep_sound {step : Step ReaderAction} (hstep : step.OnlyReads)
    (h : t.reader.Sound limit) {done : Report ReaderResult Position × _}
    (hrun : runStep step t = some done) : done.2.reader.Sound limit :=
  runStep_keeps bears_sound (fun _ hr j => hr.of_journal j) hstep h hrun

/-- **One step.**  A step that tells all takes out what its report shows. -/
theorem runStep_tells {step : Step ReaderAction} (hstep : step.TellsAll)
    (h : t.reader.Sound limit) {done : Report ReaderResult Position × _}
    (hrun : runStep step t = some done) : Trail t.reader done.1.handed done.2.reader := by
  cases step with
  | act a =>
    obtain ⟨p, hp, rfl⟩ := runStep_act_eq_some_iff.1 hrun
    have htrail := (ReaderSession.perform_tells hstep h hp).trans
      (.of_move (.note p.subject.reader (p.subject.reader.source.journal).cleared))
    rw [Option.toList_none, List.append_nil] at htrail
    exact htrail
  | within body => cases hstep
  | record on =>
    obtain rfl := runStep_record_eq_some_iff.1 hrun
    exact (Trail.of_move (.note _ _)).after (.of_move (.note _ _))

/-- **All steps.**  Steps that tell all take out what the reports show. -/
theorem run_tells (hsteps : ∀ step ∈ steps, step.OnlyReads)
    (htells : ∀ step ∈ steps, step.TellsAll) (h : t.reader.Sound limit)
    {done : List (Report ReaderResult Position) × _} (hrun : run steps t = some done) :
    Trail t.reader (handedOut done.1) done.2.reader := by
  induction steps generalizing t done with
  | nil =>
    cases hrun
    exact .stay _
  | cons step steps ih =>
    obtain ⟨first, rest, hfirst, hrest, rfl⟩ := run_cons_eq_some_iff.1 hrun
    obtain ⟨hstep, hothers⟩ := List.forall_mem_cons.1 hsteps
    obtain ⟨htell, htells⟩ := List.forall_mem_cons.1 htells
    have hsound := runStep_sound hstep h hfirst
    exact (runStep_tells htell h hfirst).trans (ih hothers htells hsound hrest)

end Session

/-- A character comes next: it is the first one handed out, or nothing is handed out and the reader
still shows it. -/
def ComesNext (c : PlacedChar) (handed : List PlacedChar) (r : Reader σ) : Prop :=
  handed.head? = some c ∨ handed = [] ∧ Reader.peek r = .ok c r

/-- What a look has shown comes next. -/
theorem Session.comesNext_of_peek {t : ReaderSession σ} {steps : List (Step ReaderAction)}
    (hsteps : ∀ step ∈ steps, step.OnlyReads) (h : t.reader.Sound limit)
    {done : List (Report ReaderResult Position) × _} (hrun : run steps t = some done) {k : Nat}
    (hpeek : steps[k]? = some (.act .peek))
    (hshown : done.1[k]?.map Report.outcome = some (some (.char c), none))
    (htells : ∀ step ∈ steps.drop (k + 1), step.TellsAll) :
    ComesNext c (handedOut (done.1.drop (k + 1))) done.2.reader := by
  induction steps generalizing t done k with
  | nil => cases hpeek
  | cons step steps ih =>
    obtain ⟨hstep, hothers⟩ := List.forall_mem_cons.1 hsteps
    obtain ⟨first, rest, hfirst, hrest, rfl⟩ := run_cons_eq_some_iff.1 hrun
    have hsound := runStep_sound hstep h hfirst
    cases k with
    | succ k => exact ih hothers hsound hrest hpeek hshown htells
    | zero =>
      -- After the look, the character is queued first.
      obtain rfl : step = .act .peek := Option.some.inj hpeek
      have hqueue : ∃ queue, first.2.reader.queue = c :: queue := by
        obtain ⟨p, hp, rfl⟩ := runStep_act_eq_some_iff.1 hfirst
        exact ReaderSession.exists_queue_of_shown hp (Prod.mk.inj (Option.some.inj hshown)).1
      obtain ⟨queue, hqueue⟩ := hqueue
      have htrail := run_tells hothers htells hsound hrest
      rcases htrail.head_of_queue hqueue with hhead | ⟨hnil, queue', hqueue'⟩
      · exact .inl hhead
      · exact .inr ⟨hnil, peek_of_precache (precache_of_queue_cons hqueue') hqueue'⟩

/-- **Looking changes nothing.**  Take any stream that does not fail; it may answer with more than
it was asked for, or with nothing and go on.  Take any session that only reads, with iterators at
work in any order, and with any number of looks at any places: asking for the end, taking in and
looking, whether or not they fail at the end of the data.

The session ends exactly if it ends without the looks, and then all other steps have the same
results and the same errors: the characters, where they stand, and whether an iterator came to its
end.  And a character that was shown comes next: it is the first one that is handed out afterwards,
and as long as none is, it is shown again. -/
theorem looking_changes_nothing {stream : σ} (hfaultless : Faultless limit stream)
    {settings : Settings} (hlimit : settings.blockSize ≤ limit) (journal : Journal)
    {steps : List (Step ReaderAction)} (hsteps : ∀ step ∈ steps, step.OnlyReads) :
    let start : ReaderSession σ := .start stream settings journal
    ((∃ done, Session.run steps start = some done) ↔
      ∃ done, Session.run (withoutLooks steps) start = some done) ∧
    ∀ ⦃done done'⦄, Session.run steps start = some done →
      Session.run (withoutLooks steps) start = some done' →
        outcomesWithoutLooks steps done.1 = done'.1.map Report.outcome ∧
        ∀ (k : Nat) (c : PlacedChar), steps[k]? = some (.act .peek) →
          done.1[k]?.map Report.outcome = some (some (.char c), none) →
          (∀ step ∈ steps.drop (k + 1), step.TellsAll) →
            ComesNext c (handedOut (done.1.drop (k + 1))) done.2.reader := by
  intro start
  have hsound : start.reader.Sound limit := Reader.sound_ofSource hfaultless hlimit journal
  have halike : SessionAlike (Reader.LooksAlike limit) start start := ⟨.refl hsound, rfl⟩
  refine ⟨⟨?_, ?_⟩, fun done done' hrun hrun' => ⟨?_, fun k c hpeek hshown htells => ?_⟩⟩
  · rintro ⟨done, hrun⟩
    obtain ⟨done', hrun', -⟩ := Session.run_without_looks hsteps halike hrun
    exact ⟨done', hrun'⟩
  · rintro ⟨done', hrun'⟩
    exact Session.run_with_looks hsteps halike hrun'
  · obtain ⟨known, hknown, houtcomes⟩ := Session.run_without_looks hsteps halike hrun
    rw [hrun'] at hknown
    rw [houtcomes, Option.some.inj hknown]
  · exact Session.comesNext_of_peek hsteps hsound hrun hpeek hshown htells

/-- A stream that gives more than it was asked for, and would go on after an empty answer.  It is
looked at before an iterator is left between a carriage return and the line feed after it, there,
and at the end. -/
theorem looking_changes_nothing_overlong :
    let stream : Script CodePoint :=
      { items := [.units (text "a\r"), .units (text "\nbc\rd"), .notReady, .units (text "x")]
        overlong := true }
    let settings : Settings := { Settings.default with blockSize := 2, blockSize_pos := by decide }
    let steps : List (Step ReaderAction) :=
      [.act .atEnd, .act .peek, .act (.keep (text "line") (.characters .inLine)),
        .act (.advance (text "line") 2), .act .peek, .act (.read 1), .act .precache, .act .lines,
        .act .peek, .act (.read 1)]
    Faultless 2 stream ∧ settings.blockSize ≤ 2 ∧ (∀ step ∈ steps, step.OnlyReads) ∧
      ∃ done done', Session.run steps (ReaderSession.start stream settings {}) = some done ∧
        Session.run [.act (.keep (text "line") (.characters .inLine)),
          .act (.advance (text "line") 2), .act (.read 1), .act .lines, .act (.read 1)]
          (ReaderSession.start stream settings {}) = some done' ∧
        outcomesWithoutLooks steps done.1 = done'.1.map Report.outcome := by
  intro stream settings steps
  have hfaultless : Faultless 2 stream := by
    apply Script.faultless
    rintro item hitem message rfl
    simp [stream] at hitem
  have hlimit : settings.blockSize ≤ 2 := Nat.le_refl 2
  have hsteps : ∀ step ∈ steps, step.OnlyReads := by decide
  obtain ⟨hends, houtcomes⟩ := looking_changes_nothing hfaultless hlimit {} hsteps
  obtain ⟨done, hrun⟩ :=
    ReaderSession.run_ends steps (ReaderSession.start stream settings {})
  obtain ⟨done', hrun'⟩ := hends.1 ⟨done, hrun⟩
  exact ⟨hfaultless, hlimit, hsteps, done, done', hrun, hrun', (houtcomes hrun hrun').1⟩

end PlacedText
