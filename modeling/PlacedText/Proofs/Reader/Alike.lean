import PlacedText.Proofs.Running.Alike
import PlacedText.Reader.Iterator

/-!
# Readers that run alike

If the four elementary actions of two readers run alike, then so does all that is built from them:
the steps of a cursor, the draining of a producer, lines and strings, and the steps of an iterator.
An iterator between two steps holds nothing of its reader, so iterators need no relation of their
own: on both sides it is the same iterator.

Everything is said up to an error as in `F` that stops the first reader.  What was drained before
that is the front of what is drained on the second one.

The relation between the readers is left open.  Readers that stand at the same place of the same
text are one example; another is a reader beside one whose stream does not fail where that of the
first one does.
-/

namespace PlacedText

variable {σ τ κ α : Type} {F : ReadError → Reader σ → Prop}

section Draining

variable {R : Reader σ → Reader τ → Prop} {p : Producer σ κ α} {q : Producer τ κ α}

/-- Two drainings with the same items and the same end, and related readers behind them. -/
structure DrainedAlike (R : Reader σ → Reader τ → Prop) (d : Drained σ α) (d' : Drained τ α) :
    Prop where
  items : d.items = d'.items
  failure : d.failure = d'.failure
  reader : R d.reader d'.reader

/-- The second draining ends like the first one, unless that one was stopped; and then its items are
the front of those of the second one, if that one ends. -/
inductive DrainedUntil (F : ReadError → Reader σ → Prop) (R : Reader σ → Reader τ → Prop)
    (d : Drained σ α) : Option (Drained τ α) → Prop where
  | alike {d' : Drained τ α} (alike : DrainedAlike R d d') : DrainedUntil F R d (some d')
  | stopped {e : ReadError} {drained : Option (Drained τ α)} (failure : d.failure = some e)
      (stop : F e d.reader) (front : ∀ d', drained = some d' → d.items <+: d'.items) :
      DrainedUntil F R d drained

/-- What was taken before stays in front. -/
theorem Producer.taken_prefix_items (q : Producer τ κ α) :
    ∀ (taken : List α) (k : κ) (r : Reader τ) (d : Drained τ α), q.drainOnto taken k r = some d →
      taken.reverse <+: d.items := by
  refine Producer.drainOnto.partial_correctness q _ ?_
  intro rest ih taken k r d hrun
  obtain ⟨result, -, hrun⟩ := Option.bind_eq_some_iff.1 hrun
  cases result with
  | error e r' =>
    cases hrun
    exact List.prefix_rfl
  | ok step r' =>
    cases step with
    | none =>
      cases hrun
      exact List.prefix_rfl
    | some x =>
      have hmore : (x.1 :: taken).reverse <+: d.items := ih _ _ _ _ hrun
      rw [List.reverse_cons] at hmore
      exact (List.prefix_append _ _).trans hmore

/-- Producers that follow each other step by step are drained alike. -/
theorem Producer.drainOnto_until (hp : ∀ k, FollowedUntil F R (p k) (q k)) :
    ∀ (taken : List α) (k : κ) (r : Reader σ) (d : Drained σ α), p.drainOnto taken k r = some d →
      ∀ r' : Reader τ, R r r' → DrainedUntil F R d (q.drainOnto taken k r') := by
  -- The induction is on the run that ends: what holds of the rest of it holds of all of it.
  refine Producer.drainOnto.partial_correctness p _ ?_
  intro rest ih taken k r d hrun r' hR
  obtain ⟨result, hstep, hrun⟩ := Option.bind_eq_some_iff.1 hrun
  rcases hp k hR hstep with ⟨e, s, rfl, hF⟩ | ⟨result', hstep', halike⟩
  · -- The first draining is stopped, and the second one keeps what was taken so far.
    cases hrun
    exact .stopped rfl hF fun d' hd' => Producer.taken_prefix_items q taken k r' d' hd'
  · cases halike with
    | error hR' =>
      -- Both fail, and both have taken the same items before.
      cases hrun
      rw [Producer.drainOnto, hstep']
      exact .alike ⟨rfl, rfl, hR'⟩
    | @ok x s t hR' =>
      cases x with
      | none =>
        -- Both have come to their end.
        cases hrun
        rw [Producer.drainOnto_of_end hstep']
        exact .alike ⟨rfl, rfl, hR'⟩
      | some x =>
        -- Both take the same item and go on from the same place.
        rw [Producer.drainOnto_of_item hstep']
        exact ih _ _ _ _ hrun t hR'

theorem Producer.drain_until (hp : ∀ k, FollowedUntil F R (p k) (q k)) {k : κ} {r : Reader σ}
    {r' : Reader τ} {d : Drained σ α} (hR : R r r') (hrun : p.drain k r = some d) :
    DrainedUntil F R d (q.drain k r') :=
  Producer.drainOnto_until hp [] k r d hrun r' hR

theorem Producer.all_until (hp : ∀ k, FollowedUntil F R (p k) (q k)) (k : κ) :
    FollowedUntil F R (p.all k) (q.all k) := by
  intro r r' hR result hrun
  obtain ⟨d, hd, rfl⟩ := Option.map_eq_some_iff.1 hrun
  have huntil : DrainedUntil F R d (q.drain k r') := Producer.drain_until hp hR hd
  rw [Producer.all]
  generalize q.drain k r' = drained at huntil ⊢
  cases huntil with
  | @stopped e _ hfailure hF =>
    left
    refine ⟨e, d.reader, ?_, hF⟩
    rw [Drained.toResult, hfailure]
  | @alike d' halike =>
    right
    refine ⟨d'.toResult, rfl, ?_⟩
    rw [Drained.toResult, Drained.toResult, ← halike.failure, ← halike.items]
    cases d.failure with
    | none => exact .ok halike.reader
    | some e => exact .error halike.reader

end Draining

/-- Two advances with the same items, the same end and the same iterator, and related readers behind
them. -/
structure AdvanceAlike (R : Reader σ → Reader τ → Prop) (a : Advance σ) (a' : Advance τ) :
    Prop where
  items : a.items = a'.items
  ended : a.ended = a'.ended
  failure : a.failure = a'.failure
  iterator : a.iterator = a'.iterator
  reader : R a.reader a'.reader

/-- The second advance ends like the first one, unless that one was stopped; and then its items are
the front of those of the second one, if that one ends. -/
inductive AdvanceUntil (F : ReadError → Reader σ → Prop) (R : Reader σ → Reader τ → Prop)
    (a : Advance σ) : Option (Advance τ) → Prop where
  | alike {a' : Advance τ} (alike : AdvanceAlike R a a') : AdvanceUntil F R a (some a')
  | stopped {e : ReadError} {advance : Option (Advance τ)} (failure : a.failure = some e)
      (stop : F e a.reader) (front : ∀ a', advance = some a' → a.items <+: a'.items) :
      AdvanceUntil F R a advance

variable [InputStream CodePoint τ]

/-- What was taken before stays in front. -/
theorem Iterator.taken_prefix_items (times : Nat) :
    ∀ (taken : List Item) (i : Iterator) {r : Reader τ} {a : Advance τ},
      i.advanceOnto taken r times = some a → taken.reverse <+: a.items := by
  induction times with
  | zero =>
    rintro taken i r a ⟨⟩
    exact List.prefix_rfl
  | succ times ih =>
    intro taken i r a hrun
    obtain ⟨result, -, hrun⟩ := Option.bind_eq_some_iff.1 hrun
    cases result with
    | error e r' =>
      cases hrun
      exact List.prefix_rfl
    | ok step r' =>
      cases step with
      | none =>
        cases hrun
        exact List.prefix_rfl
      | some x =>
        have hmore : (x.1 :: taken).reverse <+: a.items := ih _ _ hrun
        rw [List.reverse_cons] at hmore
        exact (List.prefix_append _ _).trans hmore

variable [InputStream CodePoint σ]

/-- A relation under which the elementary actions of readers run alike. -/
structure ReadAlike (R : Reader σ → Reader τ → Prop) : Prop where
  atEnd : RunAlike R Reader.atEnd Reader.atEnd
  precache : RunAlike R Reader.precache Reader.precache
  peek : RunAlike R Reader.peek Reader.peek
  read : RunAlike R Reader.read Reader.read

/-- A relation under which the elementary actions of readers run alike until a stop. -/
structure ReadUntil (F : ReadError → Reader σ → Prop) (R : Reader σ → Reader τ → Prop) : Prop where
  atEnd : RunUntil F R Reader.atEnd Reader.atEnd
  precache : RunUntil F R Reader.precache Reader.precache
  peek : RunUntil F R Reader.peek Reader.peek
  read : RunUntil F R Reader.read Reader.read

theorem ReadAlike.until {R : Reader σ → Reader τ → Prop} (h : ReadAlike R) : ReadUntil F R :=
  ⟨h.atEnd.until, h.precache.until, h.peek.until, h.read.until⟩

namespace ReadUntil

variable {R : Reader σ → Reader τ → Prop}

/-- More can count as a stop. -/
theorem mono {G : ReadError → Reader σ → Prop} (h : ReadUntil F R) (hF : ∀ e r, F e r → G e r) :
    ReadUntil G R :=
  ⟨h.atEnd.mono hF, h.precache.mono hF, h.peek.mono hF, h.read.mono hF⟩

theorem next (h : ReadUntil F R) (k : Cursor) : RunUntil F R k.next k.next := by
  cases k with
  | toEnd =>
    refine h.atEnd.bind fun ended => ?_
    cases ended with
    | true => exact .pure none
    | false => exact h.read.bind fun c => .pure _
  | inLine =>
    refine h.atEnd.bind fun ended => ?_
    cases ended with
    | true => exact .pure none
    | false => exact h.read.bind fun c => .pure _
  | afterReturn =>
    refine h.atEnd.bind fun ended => ?_
    cases ended with
    | true => exact .pure none
    | false =>
      -- What is shown is the same on both sides, so they decide alike about the line feed.
      refine h.peek.bind fun c => ?_
      cases hc : c.holds .lineFeed with
      | true => simp only [↓reduceIte]; exact h.read.bind fun c => .pure _
      | false => simp only [Bool.false_eq_true, ↓reduceIte]; exact .pure none
  | finished => exact .pure none

theorem characters (h : ReadUntil F R) (k : Cursor) :
    FollowedUntil F R (Producer.characters k) (Producer.characters k) := .total (h.next k)

omit [InputStream CodePoint σ] [InputStream CodePoint τ] in
theorem makeString (chars : List PlacedChar) :
    RunUntil F R (Reader.makeString chars) (Reader.makeString chars) := by
  unfold Reader.makeString
  cases PlacedString.ofList? chars with
  | none => exact .throw ReadError.emptyString
  | some s => exact .pure s

theorem lineString (h : ReadUntil F R) : FollowedUntil F R Reader.lineString Reader.lineString :=
  (Producer.all_until h.characters .inLine).bind fun chars => .total (makeString chars)

theorem nextLine (h : ReadUntil F R) : FollowedUntil F R Reader.nextLine Reader.nextLine := by
  refine (FollowedUntil.total h.atEnd).bind fun ended => ?_
  cases ended with
  | true => exact .pure none
  | false => exact h.lineString.bind fun s => .pure (some s)

theorem lines (h : ReadUntil F R) (u : Unit) :
    FollowedUntil F R (Producer.lines u) (Producer.lines u) :=
  h.nextLine.bind fun s => .pure (s.map (·, ()))

theorem wholeText (h : ReadUntil F R) : FollowedUntil F R Reader.wholeText Reader.wholeText :=
  (Producer.all_until h.characters .toEnd).bind fun chars => .pure (PlacedString.ofList? chars)

/-! ### Iterators -/

theorem iterator (h : ReadUntil F R) (i : Iterator) : FollowedUntil F R i.next i.next := by
  cases i with
  | characters k => exact (FollowedUntil.total (h.next k)).bind fun x => .pure _
  | lines => exact h.nextLine.bind fun s => .pure _

theorem advanceOnto (h : ReadUntil F R) (times : Nat) :
    ∀ (taken : List Item) (i : Iterator) {r : Reader σ} {r' : Reader τ} {a : Advance σ}, R r r' →
      i.advanceOnto taken r times = some a →
        AdvanceUntil F R a (i.advanceOnto taken r' times) := by
  induction times with
  | zero =>
    rintro taken i r r' a hR ⟨⟩
    exact .alike ⟨rfl, rfl, rfl, rfl, hR⟩
  | succ times ih =>
    intro taken i r r' a hR hrun
    obtain ⟨result, hstep, hrun⟩ := Option.bind_eq_some_iff.1 hrun
    rcases h.iterator i hR hstep with ⟨e, s, rfl, hF⟩ | ⟨result', hstep', halike⟩
    · cases hrun
      exact .stopped rfl hF fun a' ha' =>
        Iterator.taken_prefix_items (times + 1) taken i ha'
    · rw [Iterator.advanceOnto, hstep']
      cases halike with
      | error hR' =>
        cases hrun
        exact .alike ⟨rfl, rfl, rfl, rfl, hR'⟩
      | @ok x s t hR' =>
        cases x with
        | none =>
          cases hrun
          exact .alike ⟨rfl, rfl, rfl, rfl, hR'⟩
        | some x => exact ih _ _ hR' hrun

end ReadUntil

end PlacedText
