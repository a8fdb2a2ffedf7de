import PlacedText.Proofs.Reader.Delivery
import PlacedText.Proofs.Running.Keeping

/-!
# The trail of a reader

Whatever is done to a reader comes down to a few moves: it is asked for the end, it takes in, a
character is taken out of its queue, it is closed, or something is noted.  `Reader.Trail r cs r'`
says that some moves lead from `r` to `r'`, and that `cs` are the characters taken out meanwhile, in
this order.

`Trailing careful chars x` says that the action `x` runs along a trail: with the characters
`chars a` for the value `a`.  An action that ends with an error may have taken characters out that
no one is shown; a `careful` one has not.  Nothing at all is assumed of the stream.  So a property
that every move keeps is kept by every action, and what holds of the characters along every trail
holds of all that is ever handed out.
-/

namespace PlacedText

open Running

variable {σ κ α β : Type} [InputStream CodePoint σ]

namespace Reader

/-! ### Moves -/

section Moves

omit [InputStream CodePoint σ] in
/-- An action on the source changes nothing else of the reader. -/
theorem endState_onSource (x : SourceM σ α) (r : Reader σ) :
    endState (onSource x r) = { r with source := endState (x r.source) } := by
  rw [onSource]
  cases x r.source <;> rfl

/-- Asking for the end changes only the source. -/
theorem exists_endState_atEnd (r : Reader σ) : ∃ s, endState (atEnd r) = { r with source := s } := by
  by_cases hqueue : r.queue = []
  · have hatEnd : atEnd r = onSource Source.atEnd r := by
      rw [atEnd, bind_apply, get_apply]
      simp only [hqueue, List.isEmpty_nil, ↓reduceIte]
    exact ⟨_, by rw [hatEnd, endState_onSource]⟩
  · exact ⟨r.source, by rw [atEnd_of_queue hqueue]; rfl⟩

/-- A refill queues some block, placed from the next place on; a failed one queues nothing. -/
theorem exists_endState_refill (r : Reader σ) :
    ∃ s block, endState (refill r) = { r with
      source := s
      queue := r.queue ++ (place r.next block).1
      next := (place r.next block).2 } := by
  cases hblock : Source.readBlock r.settings.blockSize r.source with
  | ok block s => exact ⟨_, block, by rw [refill_of_readBlock hblock]; rfl⟩
  | error e s =>
    refine ⟨s, [], ?_⟩
    rw [refill_of_readBlock_fault hblock, place_nil, List.append_nil]
    rfl

/-- So does taking in, at most. -/
theorem exists_endState_precache (r : Reader σ) :
    ∃ s block, endState (precache r) = { r with
      source := s
      queue := r.queue ++ (place r.next block).1
      next := (place r.next block).2 } := by
  by_cases hqueue : r.queue = []
  · cases hend : Source.atEnd r.source with
    | ok ended s =>
      cases ended with
      | true =>
        refine ⟨s, [], ?_⟩
        rw [precache_of_atEnd hqueue hend, place_nil, List.append_nil]
        rfl
      | false =>
        rw [precache_of_not_atEnd hqueue hend]
        exact exists_endState_refill { r with source := s }
    | error e s =>
      refine ⟨s, [], ?_⟩
      rw [precache_of_source_fault hqueue hend, place_nil, List.append_nil]
      rfl
  · refine ⟨r.source, [], ?_⟩
    rw [precache_of_queue hqueue, place_nil, List.append_nil]
    rfl

end Moves

/-- A move of a reader, and the character that is taken out by it, if one is. -/
inductive Move : Reader σ → Option PlacedChar → Reader σ → Prop where
  /-- Asks whether the data has ended. -/
  | ask (r : Reader σ) : Move r none (endState (atEnd r))
  /-- Takes in, if nothing is queued. -/
  | fill (r : Reader σ) : Move r none (endState (precache r))
  /-- Takes the first character out of the queue. -/
  | take {r : Reader σ} {c : PlacedChar} {queue : List PlacedChar} (queued : r.queue = c :: queue) :
      Move r (some c) { r with queue }
  /-- Closes the stream, or fails to do so. -/
  | close (r : Reader σ) : Move r none { r with source := endState (Source.close r.source) }
  | note (r : Reader σ) (j : Journal) : Move r none { r with source.journal := j }

/-- Moves that lead from one reader to another, and the characters taken out by them. -/
inductive Trail : Reader σ → List PlacedChar → Reader σ → Prop where
  | stay (r : Reader σ) : Trail r [] r
  | move {r r₁ r' : Reader σ} {c : Option PlacedChar} {cs : List PlacedChar} (move : Move r c r₁)
      (rest : Trail r₁ cs r') : Trail r (c.toList ++ cs) r'

namespace Trail

variable {r r₁ r' : Reader σ} {c : PlacedChar} {cs ds : List PlacedChar}

/-- One trail after another. -/
theorem trans (h : Trail r cs r₁) (h' : Trail r₁ ds r') : Trail r (cs ++ ds) r' := by
  induction h with
  | stay r => exact h'
  | move hmove _ ih =>
    rw [List.append_assoc]
    exact .move hmove (ih h')

/-- A single move. -/
theorem of_move {c : Option PlacedChar} (h : Move r c r') : Trail r c.toList r' := by
  have := Trail.move h (.stay r')
  rwa [List.append_nil] at this

/-- Moves that take nothing out leave the trail with the same characters. -/
theorem after (h : Trail r [] r₁) (h' : Trail r₁ cs r') : Trail r cs r' := h.trans h'

/-- What every move keeps holds at the end of a trail. -/
theorem keeps {I : Reader σ → Prop} (hI : ∀ ⦃r c r'⦄, Move r c r' → I r → I r')
    (h : Trail r cs r') (hr : I r) : I r' := by
  induction h with
  | stay r => exact hr
  | move hmove _ ih => exact ih (hI hmove hr)

end Trail

end Reader

/-! ### Actions along a trail -/

open Reader

/-- What came of an action: the trail to where it ended, of which the value shows the characters.
After an error, none were taken out if the action is careful. -/
inductive Trailed (careful : Prop) (chars : α → List PlacedChar) (r : Reader σ) :
    EStateM.Result ReadError (Reader σ) α → Prop where
  | ok {a : α} {r' : Reader σ} (trail : Trail r (chars a) r') : Trailed careful chars r (.ok a r')
  | error {e : ReadError} {lost : List PlacedChar} {r' : Reader σ} (trail : Trail r lost r')
      (kept : careful → lost = []) : Trailed careful chars r (.error e r')

/-- If the action ends, it has run along a trail. -/
def Trailing (careful : Prop) (chars : α → List PlacedChar) (x : DrainM σ α) : Prop :=
  ∀ ⦃r : Reader σ⦄ ⦃result⦄, x r = some result → Trailed careful chars r result

namespace Trailing

variable {careful : Prop} {chars : α → List PlacedChar} {chars' : β → List PlacedChar}
  {x : DrainM σ α}

/-- An action after one that takes nothing out. -/
theorem bind (hx : Trailing True (fun _ => []) x) {f : α → DrainM σ β}
    (hf : ∀ a, Trailing careful chars' (f a)) : Trailing careful chars' (x >>= f) := by
  intro r result hrun
  rw [partial_bind_apply] at hrun
  cases hfirst : x r with
  | none => rw [hfirst] at hrun; cases hrun
  | some first =>
    have htrailed := hx hfirst
    rw [hfirst] at hrun
    cases htrailed with
    | error htrail hkept =>
      cases hrun
      exact .error htrail fun _ => hkept trivial
    | ok htrail =>
      -- The trail of the first action has no characters, so it only goes in front.
      cases hf _ hrun with
      | ok htrail' => exact .ok (htrail.after htrail')
      | error htrail' hkept => exact .error (htrail.after htrail') hkept

/-- An action of which the value is only put into another form. -/
theorem map (hx : Trailing careful chars x) {g : α → β} (hg : ∀ a, chars' (g a) = chars a) :
    Trailing careful chars' (x >>= fun a => pure (g a)) := by
  intro r result hrun
  rw [partial_bind_apply] at hrun
  cases hfirst : x r with
  | none => rw [hfirst] at hrun; cases hrun
  | some first =>
    have htrailed := hx hfirst
    rw [hfirst] at hrun
    cases htrailed with
    | error htrail hkept =>
      cases hrun
      exact .error htrail hkept
    | ok htrail =>
      cases hrun
      refine .ok ?_
      rw [hg]
      exact htrail

/-- An action that takes nothing out and ends at once. -/
theorem pure {b : β} (hb : chars' b = []) :
    Trailing careful chars' (Pure.pure b : DrainM σ β) := by
  rintro r result ⟨⟩
  refine .ok ?_
  rw [hb]
  exact .stay r

/-- Less care can be asked for. -/
theorem mono {careful' : Prop} (hx : Trailing careful chars x) (h : careful' → careful) :
    Trailing careful' chars x := by
  intro r result hrun
  cases hx hrun with
  | ok htrail => exact .ok htrail
  | error htrail hkept => exact .error htrail fun hcareful => hkept (h hcareful)

end Trailing

/-! ### Asking, looking and reading -/

namespace Reader

/-- An action that is a single move takes nothing out. -/
theorem trailing_of_move {x : ReaderM σ β} (hmove : ∀ r, Move r none (endState (x r))) :
    Trailing True (fun _ => []) (PartialM.total x) := by
  rintro r result ⟨⟩
  have htrail : Trail r [] (endState (x r)) := .of_move (hmove r)
  generalize x r = result at htrail ⊢
  cases result with
  | ok b r' => exact .ok htrail
  | error e r' => exact .error htrail fun _ => rfl

theorem atEnd_trailing : Trailing True (fun _ => []) (PartialM.total (atEnd (σ := σ))) :=
  trailing_of_move .ask

theorem precache_trailing : Trailing True (fun _ => []) (PartialM.total (precache (σ := σ))) :=
  trailing_of_move .fill

theorem close_trailing : Trailing True (fun _ => []) (PartialM.total (close (σ := σ))) := by
  refine trailing_of_move fun r => ?_
  rw [close, endState_onSource]
  exact .close r

/-- Looking is taking in. -/
theorem peek_trailing : Trailing True (fun _ => []) (PartialM.total (peek (σ := σ))) := by
  rintro r result ⟨⟩
  have htrail : Trail r [] (endState (precache r)) := .of_move (.fill r)
  cases hprecache : precache r with
  | error e r' =>
    rw [hprecache] at htrail
    rw [peek_of_precache_error hprecache]
    exact .error htrail fun _ => rfl
  | ok u r' =>
    rw [hprecache] at htrail
    rw [peek, bind_apply, hprecache]
    simp only [bind_apply, get_apply]
    cases hqueue : r'.queue with
    | nil => exact .error htrail fun _ => rfl
    | cons c queue => exact .ok htrail

/-- Reading is taking in, and then taking one character out. -/
theorem read_trailing : Trailing True (fun c => [c]) (PartialM.total (read (σ := σ))) := by
  rintro r result ⟨⟩
  have htrail : Trail r [] (endState (precache r)) := .of_move (.fill r)
  cases hprecache : precache r with
  | error e r' =>
    rw [hprecache] at htrail
    rw [read_of_precache_error hprecache]
    exact .error htrail fun _ => rfl
  | ok u r' =>
    rw [hprecache] at htrail
    cases hqueue : r'.queue with
    | nil =>
      rw [read, bind_apply, hprecache]
      simp only [bind_apply, get_apply, hqueue]
      exact .error htrail fun _ => rfl
    | cons c queue =>
      rw [read_of_precache hprecache hqueue]
      exact .ok (htrail.after (.of_move (.take hqueue)))

end Reader

/-! ### Cursors -/

/-- Two actions that end are, one after the other, an action that ends. -/
theorem Running.total_bind {ε τ : Type} (x : EStateM ε τ α) (f : α → EStateM ε τ β) :
    PartialM.total (x >>= f) = (PartialM.total x >>= fun a => PartialM.total (f a)) := by
  funext s
  rw [total_apply, bind_apply, partial_bind_apply, total_apply]
  cases x s with
  | ok a s' => rfl
  | error e s' => rfl

/-- A cursor takes out the character that it gives. -/
theorem Producer.characters_trailing (k : Cursor) :
    Trailing True (stepChars fun c => [c]) (Producer.characters (σ := σ) k) := by
  cases k with
  | finished => exact .pure rfl
  | toEnd =>
    rw [characters, Cursor.next, total_bind]
    refine Reader.atEnd_trailing.bind fun ended => ?_
    cases ended with
    | true => exact .pure rfl
    | false =>
      simp only [Bool.false_eq_true, ↓reduceIte, total_bind]
      exact Reader.read_trailing.map fun c => rfl
  | inLine =>
    rw [characters, Cursor.next, total_bind]
    refine Reader.atEnd_trailing.bind fun ended => ?_
    cases ended with
    | true => exact .pure rfl
    | false =>
      simp only [Bool.false_eq_true, ↓reduceIte, total_bind]
      exact Reader.read_trailing.map fun c => rfl
  | afterReturn =>
    rw [characters, Cursor.next, total_bind]
    refine Reader.atEnd_trailing.bind fun ended => ?_
    cases ended with
    | true => exact .pure rfl
    | false =>
      simp only [Bool.false_eq_true, ↓reduceIte, total_bind]
      refine Reader.peek_trailing.bind fun c => ?_
      -- The character was only shown; it is taken out if it is a line feed.
      cases c.holds .lineFeed with
      | true =>
        simp only [↓reduceIte, total_bind]
        exact Reader.read_trailing.map fun c => rfl
      | false => exact .pure rfl

/-! ### Draining -/

section Draining

variable {careful : Prop} {chars : α → List PlacedChar} {p : Producer σ κ α}

/-- Draining takes out the characters of the items.  Beyond them it can only take out what a step
that was not careful has lost in an error. -/
theorem Producer.drainOnto_trail (hp : ∀ k, Trailing careful (stepChars chars) (p k)) :
    ∀ (taken : List α) (k : κ) (r : Reader σ) (d : Drained σ α), p.drainOnto taken k r = some d →
      ∃ given lost, d.items = taken.reverse ++ given ∧
        Trail r (given.flatMap chars ++ lost) d.reader ∧
        (careful ∨ d.failure = none → lost = []) := by
  -- The induction is on the run that ends; each step puts its characters in front of the trail.
  refine Producer.drainOnto.partial_correctness p _ ?_
  intro rest ih taken k r d hrun
  obtain ⟨result, hstep, hrun⟩ := Option.bind_eq_some_iff.1 hrun
  cases hp k hstep with
  | @error e lost r' htrail hkept =>
    cases hrun
    refine ⟨[], lost, (List.append_nil _).symm, htrail, ?_⟩
    rintro (hcareful | hfailure)
    · exact hkept hcareful
    · cases hfailure
  | @ok step r' htrail =>
    cases step with
    | none =>
      cases hrun
      exact ⟨[], [], (List.append_nil _).symm, htrail, fun _ => rfl⟩
    | some x =>
      obtain ⟨given, lost, hitems, htrail', hlost⟩ := ih _ _ _ _ hrun
      refine ⟨x.1 :: given, lost, ?_, ?_, hlost⟩
      · rw [hitems, List.reverse_cons, List.append_assoc, List.singleton_append]
      · rw [List.flatMap_cons, List.append_assoc]
        exact htrail.trans htrail'

theorem Producer.drain_trail (hp : ∀ k, Trailing careful (stepChars chars) (p k)) {k : κ}
    {r : Reader σ} {d : Drained σ α} (hrun : p.drain k r = some d) :
    ∃ lost, Trail r (d.items.flatMap chars ++ lost) d.reader ∧
      (careful ∨ d.failure = none → lost = []) := by
  obtain ⟨given, lost, hitems, htrail, hlost⟩ := Producer.drainOnto_trail hp [] k r d hrun
  obtain rfl : d.items = given := hitems
  exact ⟨lost, htrail, hlost⟩

/-- Draining as one action is not careful: an error loses the items. -/
theorem Producer.all_trailing (hp : ∀ k, Trailing careful (stepChars chars) (p k)) (k : κ) :
    Trailing False (·.flatMap chars) (p.all k) := by
  intro r result hrun
  obtain ⟨d, hd, rfl⟩ := Option.map_eq_some_iff.1 hrun
  obtain ⟨lost, htrail, hlost⟩ := Producer.drain_trail hp hd
  rw [Drained.toResult]
  cases hfailure : d.failure with
  | none =>
    rw [hlost (.inr hfailure), List.append_nil] at htrail
    exact .ok htrail
  | some e => exact .error htrail False.elim

end Draining

/-- Draining a cursor in one action takes out the characters. -/
theorem Producer.all_characters_trailing (k : Cursor) :
    Trailing False id ((Producer.characters (σ := σ)).all k) := by
  intro r result hrun
  cases Producer.all_trailing Producer.characters_trailing k hrun with
  | error htrail hkept => exact .error htrail hkept
  | ok htrail =>
    rw [List.flatMap_singleton'] at htrail
    exact .ok htrail

/-! ### Lines and iterators -/

namespace Reader

theorem lineString_trailing : Trailing False PlacedString.chars (lineString (σ := σ)) := by
  intro r result hrun
  rw [lineString, partial_bind_apply] at hrun
  cases hall : (Producer.characters (σ := σ)).all .inLine r with
  | none => rw [hall] at hrun; cases hrun
  | some first =>
    have htrailed := Producer.all_characters_trailing .inLine hall
    rw [hall] at hrun
    cases htrailed with
    | error htrail hkept =>
      cases hrun
      exact .error htrail hkept
    | @ok cs r' htrail =>
      obtain rfl := Option.some.inj hrun
      rw [makeString, PlacedString.ofList?]
      by_cases hcs : cs = []
      · rw [dif_pos hcs]
        exact .error htrail False.elim
      · rw [dif_neg hcs]
        exact .ok htrail

theorem nextLine_trailing :
    Trailing False (·.toList.flatMap PlacedString.chars) (nextLine (σ := σ)) := by
  refine atEnd_trailing.bind fun ended => ?_
  cases ended with
  | true => exact .pure rfl
  | false => exact lineString_trailing.map fun s => List.append_nil s.chars

theorem wholeText_trailing :
    Trailing False (·.toList.flatMap PlacedString.chars) (wholeText (σ := σ)) := by
  refine (Producer.all_characters_trailing .toEnd).map fun cs => ?_
  rw [PlacedString.ofList?]
  by_cases hcs : cs = []
  · rw [dif_pos hcs, hcs]
    rfl
  · rw [dif_neg hcs]
    exact List.append_nil cs

end Reader

theorem Producer.lines_trailing (u : Unit) :
    Trailing False (stepChars PlacedString.chars) (Producer.lines (σ := σ) u) := by
  refine Reader.nextLine_trailing.map fun line => ?_
  cases line with
  | none => rfl
  | some s => exact (List.append_nil s.chars).symm

/-- An iterator is careful unless it takes lines. -/
theorem Iterator.next_trailing (i : Iterator) :
    Trailing (i ≠ .lines) (stepChars Item.chars) (i.next (σ := σ)) := by
  cases i with
  | characters k =>
    refine Trailing.map ((Producer.characters_trailing k).mono fun _ => trivial) fun step => ?_
    cases step <;> rfl
  | lines =>
    refine Trailing.map (Reader.nextLine_trailing.mono fun h => h rfl) fun line => ?_
    cases line with
    | none => rfl
    | some s => exact (List.append_nil s.chars).symm

/-- An iterator that gives single characters goes on giving single characters. -/
theorem Iterator.ne_lines_of_next {i i' : Iterator} {item : Item} {r r' : Reader σ}
    (h : i.next r = some (.ok (some (item, i')) r')) (hi : i ≠ .lines) : i' ≠ .lines := by
  cases i with
  | lines => exact absurd rfl hi
  | characters k =>
    rw [next, partial_bind_apply, total_apply] at h
    cases hnext : k.next r with
    | error e r₁ => rw [hnext] at h; cases h
    | ok step r₁ =>
      rw [hnext] at h
      cases step with
      | none => cases h
      | some x =>
        cases h
        exact fun heq => by cases heq

/-- Advancing an iterator takes out the characters of the items, and beyond them only what was lost
in an error over a line.  An iterator of characters stays one. -/
theorem Iterator.advanceOnto_trail (times : Nat) :
    ∀ (taken : List Item) (i : Iterator) {r : Reader σ} {a : Advance σ},
      i.advanceOnto taken r times = some a →
        ∃ given lost, a.items = taken.reverse ++ given ∧
          Trail r (given.flatMap Item.chars ++ lost) a.reader ∧
          (i ≠ .lines ∨ a.failure = none → lost = []) ∧ (i ≠ .lines → a.iterator ≠ .lines) := by
  induction times with
  | zero =>
    rintro taken i r a ⟨⟩
    exact ⟨[], [], (List.append_nil _).symm, .stay r, fun _ => rfl, id⟩
  | succ times ih =>
    intro taken i r a hrun
    obtain ⟨result, hstep, hrun⟩ := Option.bind_eq_some_iff.1 hrun
    cases i.next_trailing hstep with
    | @error e lost r' htrail hkept =>
      cases hrun
      refine ⟨[], lost, (List.append_nil _).symm, htrail, ?_, fun _ h => by cases h⟩
      rintro (hi | hfailure)
      · exact hkept hi
      · cases hfailure
    | @ok step r' htrail =>
      cases step with
      | none =>
        cases hrun
        exact ⟨[], [], (List.append_nil _).symm, htrail, fun _ => rfl, fun _ h => by cases h⟩
      | some x =>
        obtain ⟨given, lost, hitems, htrail', hlost, hstays⟩ := ih _ _ hrun
        refine ⟨x.1 :: given, lost, ?_, ?_, ?_, fun hi => hstays (ne_lines_of_next hstep hi)⟩
        · rw [hitems, List.reverse_cons, List.append_assoc, List.singleton_append]
        · rw [List.flatMap_cons, List.append_assoc]
          exact htrail.trans htrail'
        · exact fun h => hlost (h.imp_left (ne_lines_of_next hstep))

end PlacedText
