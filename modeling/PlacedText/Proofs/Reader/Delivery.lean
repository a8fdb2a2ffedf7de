import PlacedText.Proofs.Reader.Accounting
import PlacedText.Reader.Iterator

/-!
# What actions hand out

`HandsOut limit origin chars x` says of an action `x` that it keeps the account of a reader, and
that what it hands out is in its value: `chars a` for the value `a`, and nothing if it ends with an
error.  `Succeeds limit origin x` says that it does not end with an error at all.

A cursor succeeds at every step, since it asks for the end before it reads
(`Cursor.next_of_delivered`).  This is why draining a cursor in one action loses nothing, although
an error would lose the items.
-/

namespace PlacedText

open Running

variable {σ κ α β : Type} [InputStream CodePoint σ] {limit : Nat} {origin : σ}
  {xs : List Exchange} {handed : List PlacedChar} {r : Reader σ}

/-- The account after an action of which the value hands out `chars`. -/
inductive HandedOut (limit : Nat) (origin : σ) (chars : α → List PlacedChar) (xs : List Exchange)
    (handed : List PlacedChar) : EStateM.Result ReadError (Reader σ) α → Prop where
  | ok {a : α} {r : Reader σ} (kept : r.Delivered limit origin xs (handed ++ chars a)) :
      HandedOut limit origin chars xs handed (.ok a r)
  | error {e : ReadError} {r : Reader σ} (kept : r.Delivered limit origin xs handed) :
      HandedOut limit origin chars xs handed (.error e r)

/-- If the action ends, the account is kept, and what was handed out is in its value. -/
def HandsOut (limit : Nat) (origin : σ) (chars : α → List PlacedChar) (x : DrainM σ α) : Prop :=
  ∀ ⦃xs handed r⦄, r.Delivered limit origin xs handed → ∀ ⦃result⦄, x r = some result →
    ∃ xs', xs <+: xs' ∧ HandedOut limit origin chars xs' handed result

/-- If the action ends, it ends with a value. -/
def Succeeds (limit : Nat) (origin : σ) (x : DrainM σ α) : Prop :=
  ∀ ⦃xs handed r⦄, r.Delivered limit origin xs handed → ∀ ⦃result⦄, x r = some result →
    ∃ a r', result = .ok a r'

/-- The characters of the item that was taken in one step of a producer, if one was. -/
def stepChars (chars : α → List PlacedChar) (step : Option (α × κ)) : List PlacedChar :=
  match step with
  | none => []
  | some x => chars x.1

namespace HandsOut

variable {chars : α → List PlacedChar} {chars' : β → List PlacedChar} {x : DrainM σ α}

/-- An action after one that hands out nothing. -/
theorem bind (hx : HandsOut limit origin (fun _ => []) x) {f : α → DrainM σ β}
    (hf : ∀ a, HandsOut limit origin chars' (f a)) : HandsOut limit origin chars' (x >>= f) := by
  intro xs handed r h result hrun
  rw [partial_bind_apply] at hrun
  cases hfirst : x r with
  | none => rw [hfirst] at hrun; cases hrun
  | some first =>
    obtain ⟨xs₁, hgrown, hhanded⟩ := hx h hfirst
    rw [hfirst] at hrun
    cases hhanded with
    | error hr =>
      cases hrun
      exact ⟨xs₁, hgrown, .error hr⟩
    | ok hr =>
      -- The first action has handed out nothing, so the second one begins with the same account.
      rw [List.append_nil] at hr
      obtain ⟨xs', hgrown', hhanded'⟩ := hf _ hr hrun
      exact ⟨xs', hgrown.trans hgrown', hhanded'⟩

/-- An action of which the value is only put into another form. -/
theorem map (hx : HandsOut limit origin chars x) {g : α → β} (hg : ∀ a, chars' (g a) = chars a) :
    HandsOut limit origin chars' (x >>= fun a => pure (g a)) := by
  intro xs handed r h result hrun
  rw [partial_bind_apply] at hrun
  cases hfirst : x r with
  | none => rw [hfirst] at hrun; cases hrun
  | some first =>
    obtain ⟨xs', hgrown, hhanded⟩ := hx h hfirst
    rw [hfirst] at hrun
    cases hhanded with
    | error hr =>
      cases hrun
      exact ⟨xs', hgrown, .error hr⟩
    | ok hr =>
      cases hrun
      refine ⟨xs', hgrown, .ok ?_⟩
      rw [hg]
      exact hr

/-- An action that hands out nothing and ends at once. -/
theorem pure {b : β} (hb : chars' b = []) :
    HandsOut limit origin chars' (Pure.pure b : DrainM σ β) := by
  rintro xs handed r h result ⟨⟩
  refine ⟨xs, List.prefix_rfl, .ok ?_⟩
  rw [hb, List.append_nil]
  exact h

end HandsOut

/-! ### Asking, looking and cursors -/

theorem Reader.atEnd_handsOut :
    HandsOut limit origin (fun _ => []) (PartialM.total (Reader.atEnd (σ := σ))) := by
  rintro xs handed r h result ⟨⟩
  obtain ⟨ended, xs', r', hend, hgrown, hr', -⟩ := Reader.atEnd_of_delivered h
  rw [hend]
  refine ⟨xs', hgrown, .ok ?_⟩
  rw [List.append_nil]
  exact hr'

theorem Reader.precache_handsOut :
    HandsOut limit origin (fun _ => []) (PartialM.total (Reader.precache (σ := σ))) := by
  rintro xs handed r h result ⟨⟩
  rcases Reader.precache_of_delivered h with
    ⟨xs', r', hgrown, hr', ⟨hok, -⟩ | ⟨-, e, herror⟩⟩
  · rw [hok]
    refine ⟨xs', hgrown, .ok ?_⟩
    rw [List.append_nil]
    exact hr'
  · rw [herror]
    exact ⟨xs', hgrown, .error hr'⟩

theorem Reader.peek_handsOut :
    HandsOut limit origin (fun _ => []) (PartialM.total (Reader.peek (σ := σ))) := by
  rintro xs handed r h result ⟨⟩
  rcases Reader.peek_of_delivered h with
    ⟨xs', r', hgrown, hr', ⟨⟨c, hpeek⟩, -⟩ | ⟨-, e, herror⟩⟩
  · rw [hpeek]
    refine ⟨xs', hgrown, .ok ?_⟩
    rw [List.append_nil]
    exact hr'
  · rw [herror]
    exact ⟨xs', hgrown, .error hr'⟩

/-- A cursor never fails, and hands out the character that it gives. -/
theorem Cursor.next_of_delivered (h : r.Delivered limit origin xs handed) (k : Cursor) :
    ∃ step xs' r', k.next r = .ok step r' ∧ xs <+: xs' ∧
      r'.Delivered limit origin xs' (handed ++ stepChars (fun c => [c]) step) := by
  by_cases hk : k = .finished
  · subst hk
    refine ⟨none, xs, r, rfl, List.prefix_rfl, ?_⟩
    rw [stepChars, List.append_nil]
    exact h
  -- The cursor asks for the end first, and after the answer no it can rely on a character.
  obtain ⟨ended, xs₁, r₁, hend, hgrown₁, hr₁, -, hstocked⟩ := Reader.atEnd_of_delivered h
  cases ended with
  | true =>
    refine ⟨none, xs₁, r₁, next_of_atEnd hend hk, hgrown₁, ?_⟩
    rw [stepChars, List.append_nil]
    exact hr₁
  | false =>
    have hr₁stocked : r₁.Stocked := hstocked rfl
    cases k with
    | finished => exact absurd rfl hk
    | toEnd =>
      obtain ⟨c, xs', r', hread, hgrown, hr'⟩ := Reader.read_of_stocked hr₁ hr₁stocked
      exact ⟨_, xs', r', next_toEnd hend hread, hgrown₁.trans hgrown, hr'⟩
    | inLine =>
      obtain ⟨c, xs', r', hread, hgrown, hr'⟩ := Reader.read_of_stocked hr₁ hr₁stocked
      exact ⟨_, xs', r', next_inLine hend hread, hgrown₁.trans hgrown, hr'⟩
    | afterReturn =>
      obtain ⟨c, xs₂, r₂, hpeek, hgrown₂, hr₂, hr₂stocked⟩ := Reader.peek_of_stocked hr₁ hr₁stocked
      cases hfeed : c.holds .lineFeed with
      | false =>
        -- The character was only shown, and is left to whoever reads next.
        refine ⟨none, xs₂, r₂, next_afterReturn_of_ne_feed hend hpeek hfeed,
          hgrown₁.trans hgrown₂, ?_⟩
        rw [stepChars, List.append_nil]
        exact hr₂
      | true =>
        obtain ⟨c', xs', r', hread, hgrown, hr'⟩ := Reader.read_of_stocked hr₂ hr₂stocked
        exact ⟨_, xs', r', next_afterReturn_of_feed hend hpeek hfeed hread,
          (hgrown₁.trans hgrown₂).trans hgrown, hr'⟩

theorem Producer.characters_handsOut (k : Cursor) :
    HandsOut limit origin (stepChars fun c => [c]) (Producer.characters (σ := σ) k) := by
  rintro xs handed r h result ⟨⟩
  obtain ⟨step, xs', r', hnext, hgrown, hr'⟩ := k.next_of_delivered h
  rw [hnext]
  exact ⟨xs', hgrown, .ok hr'⟩

theorem Producer.characters_succeeds (k : Cursor) :
    Succeeds limit origin (Producer.characters (σ := σ) k) := by
  rintro xs handed r h result ⟨⟩
  obtain ⟨step, xs', r', hnext, -, -⟩ := k.next_of_delivered h
  exact ⟨step, r', hnext⟩

/-! ### Draining -/

section Draining

variable {chars : α → List PlacedChar} {p : Producer σ κ α}

/-- Draining a producer hands out the items that it gives, whether or not it fails in the end. -/
theorem Producer.drainOnto_of_delivered (hp : ∀ k, HandsOut limit origin (stepChars chars) (p k)) :
    ∀ (taken : List α) (k : κ) (r : Reader σ) (d : Drained σ α), p.drainOnto taken k r = some d →
      ∀ xs handed, r.Delivered limit origin xs (handed ++ taken.reverse.flatMap chars) →
        (∃ xs', xs <+: xs' ∧
          d.reader.Delivered limit origin xs' (handed ++ d.items.flatMap chars)) ∧
        ((∀ k, Succeeds limit origin (p k)) → d.failure = none) := by
  -- The induction is on the run that ends; each step adds its item to those taken.
  refine Producer.drainOnto.partial_correctness p _ ?_
  intro rest ih taken k r d hrun xs handed h
  obtain ⟨result, hstep, hrun⟩ := Option.bind_eq_some_iff.1 hrun
  obtain ⟨xs', hgrown, hhanded⟩ := hp k h hstep
  cases hhanded with
  | error hr =>
    -- The items taken so far are kept.  A producer that always succeeds does not come here.
    cases hrun
    refine ⟨⟨xs', hgrown, hr⟩, fun hsucceeds => ?_⟩
    obtain ⟨a, r', heq⟩ := hsucceeds k h hstep
    cases heq
  | @ok step r' hr =>
    cases step with
    | none =>
      cases hrun
      refine ⟨⟨xs', hgrown, ?_⟩, fun _ => rfl⟩
      rw [stepChars, List.append_nil] at hr
      exact hr
    | some x =>
      have hr' : r'.Delivered limit origin xs'
          (handed ++ (x.1 :: taken).reverse.flatMap chars) := by
        rw [List.reverse_cons, List.flatMap_append, List.flatMap_singleton, ← List.append_assoc]
        exact hr
      obtain ⟨⟨xs'', hgrown', hd⟩, hfailure⟩ := ih _ _ _ _ hrun xs' handed hr'
      exact ⟨⟨xs'', hgrown.trans hgrown', hd⟩, hfailure⟩

theorem Producer.drain_of_delivered (hp : ∀ k, HandsOut limit origin (stepChars chars) (p k))
    {k : κ} {d : Drained σ α} (h : r.Delivered limit origin xs handed)
    (hrun : p.drain k r = some d) :
    ∃ xs', xs <+: xs' ∧ d.reader.Delivered limit origin xs' (handed ++ d.items.flatMap chars) := by
  rw [← List.append_nil handed] at h
  exact (Producer.drainOnto_of_delivered hp [] k r d hrun xs handed h).1

/-- Draining a producer that always succeeds hands out the items, as one action. -/
theorem Producer.all_handsOut (hp : ∀ k, HandsOut limit origin (stepChars chars) (p k))
    (hsucceeds : ∀ k, Succeeds limit origin (p k)) (k : κ) :
    HandsOut limit origin (·.flatMap chars) (p.all k) := by
  intro xs handed r h result hrun
  obtain ⟨d, hd, rfl⟩ := Option.map_eq_some_iff.1 hrun
  rw [← List.append_nil handed] at h
  obtain ⟨⟨xs', hgrown, hr⟩, hfailure⟩ :=
    Producer.drainOnto_of_delivered hp [] k r d hd xs handed h
  rw [Drained.toResult, hfailure hsucceeds]
  exact ⟨xs', hgrown, .ok hr⟩

end Draining

/-! ### Lines and iterators -/

/-- Draining a cursor in one action hands out the characters. -/
theorem Producer.all_characters_handsOut (k : Cursor) :
    HandsOut limit origin id ((Producer.characters (σ := σ)).all k) := by
  have hall : HandsOut limit origin (·.flatMap fun c => [c]) (Producer.characters.all k) :=
    Producer.all_handsOut Producer.characters_handsOut Producer.characters_succeeds k
  intro xs handed r h result hrun
  obtain ⟨xs', hgrown, hhanded⟩ := hall h hrun
  cases hhanded with
  | error hr => exact ⟨xs', hgrown, .error hr⟩
  | ok hr =>
    rw [List.flatMap_singleton'] at hr
    exact ⟨xs', hgrown, .ok hr⟩

namespace Reader

/-- Making a string of a line loses nothing: it fails only if there are no characters. -/
theorem lineString_handsOut :
    HandsOut limit origin PlacedString.chars (lineString (σ := σ)) := by
  intro xs handed r h result hrun
  rw [lineString, partial_bind_apply] at hrun
  cases hall : (Producer.characters (σ := σ)).all .inLine r with
  | none => rw [hall] at hrun; cases hrun
  | some first =>
    obtain ⟨xs', hgrown, hhanded⟩ := Producer.all_characters_handsOut .inLine h hall
    rw [hall] at hrun
    refine ⟨xs', hgrown, ?_⟩
    cases hhanded with
    | error hr =>
      cases hrun
      exact .error hr
    | @ok cs r' hr =>
      obtain rfl := Option.some.inj hrun
      rw [makeString, PlacedString.ofList?]
      by_cases hcs : cs = []
      · -- An error, but nothing is lost by it.
        rw [dif_pos hcs]
        rw [hcs, id, List.append_nil] at hr
        exact .error hr
      · rw [dif_neg hcs]
        exact .ok hr

theorem nextLine_handsOut :
    HandsOut limit origin (·.toList.flatMap PlacedString.chars) (nextLine (σ := σ)) := by
  refine atEnd_handsOut.bind fun ended => ?_
  cases ended with
  | true => exact .pure rfl
  | false => exact lineString_handsOut.map fun s => List.append_nil s.chars

theorem wholeText_handsOut :
    HandsOut limit origin (·.toList.flatMap PlacedString.chars) (wholeText (σ := σ)) := by
  refine (Producer.all_characters_handsOut .toEnd).map fun cs => ?_
  rw [PlacedString.ofList?]
  by_cases hcs : cs = []
  · rw [dif_pos hcs, hcs]
    rfl
  · rw [dif_neg hcs]
    exact List.append_nil cs

end Reader

theorem Producer.lines_handsOut (u : Unit) :
    HandsOut limit origin (stepChars PlacedString.chars) (Producer.lines (σ := σ) u) := by
  refine Reader.nextLine_handsOut.map fun line => ?_
  cases line with
  | none => rfl
  | some s => exact (List.append_nil s.chars).symm

/-- The characters of an item. -/
def Item.chars : Item → List PlacedChar
  | .char c => [c]
  | .string s => s.chars

theorem Iterator.next_handsOut (i : Iterator) :
    HandsOut limit origin (stepChars Item.chars) (i.next (σ := σ)) := by
  cases i with
  | characters k =>
    refine (Producer.characters_handsOut k).map fun step => ?_
    cases step <;> rfl
  | lines =>
    refine Reader.nextLine_handsOut.map fun line => ?_
    cases line with
    | none => rfl
    | some s => exact (List.append_nil s.chars).symm

/-- Advancing an iterator hands out the items that it gives. -/
theorem Iterator.advanceOnto_of_delivered (times : Nat) :
    ∀ (taken : List Item) (i : Iterator) {r : Reader σ} {a : Advance σ} {xs : List Exchange},
      i.advanceOnto taken r times = some a →
      r.Delivered limit origin xs (handed ++ taken.reverse.flatMap Item.chars) →
        ∃ xs', xs <+: xs' ∧
          a.reader.Delivered limit origin xs' (handed ++ a.items.flatMap Item.chars) := by
  induction times with
  | zero =>
    rintro taken i r a xs ⟨⟩ h
    exact ⟨xs, List.prefix_rfl, h⟩
  | succ times ih =>
    intro taken i r a xs hrun h
    obtain ⟨result, hstep, hrun⟩ := Option.bind_eq_some_iff.1 hrun
    obtain ⟨xs₁, hgrown, hhanded⟩ := i.next_handsOut h hstep
    cases hhanded with
    | error hr =>
      cases hrun
      exact ⟨xs₁, hgrown, hr⟩
    | @ok step r' hr =>
      cases step with
      | none =>
        cases hrun
        rw [stepChars, List.append_nil] at hr
        exact ⟨xs₁, hgrown, hr⟩
      | some x =>
        -- The item joins those taken before, and the rest goes by induction.
        have hr' : r'.Delivered limit origin xs₁
            (handed ++ (x.1 :: taken).reverse.flatMap Item.chars) := by
          rw [List.reverse_cons, List.flatMap_append, List.flatMap_singleton, ← List.append_assoc]
          exact hr
        obtain ⟨xs', hgrown', ha⟩ := ih _ _ hrun hr'
        exact ⟨xs', hgrown.trans hgrown', ha⟩

end PlacedText
