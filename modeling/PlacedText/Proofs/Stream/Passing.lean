import PlacedText.Proofs.Stream.Exchanges
import PlacedText.Stream.Device

/-!
# Streams that pass over texts

A stream of decoded bytes has a text for each run of its bytes.  Its answers need not stop where a
text ends: a read that has not got enough goes on into the next text, and only an answer without
characters tells of an end.  `Passed ts a ts'` says that the characters `a` lead from the texts `ts`
to the texts `ts'`.  A text that is left out at the end of the list is as good as an empty one.

`Passes limit F short ts s` says of a stream that its answers pass over the texts `ts` in order.  No
answer is longer than what was asked for; the proposition `short` says whether one may be shorter.
Sizes up to `limit` fail only with faults in `F`.

If all but the first of the texts are empty and there are no faults, such a stream serves that text
(`Passes.serves`).  Otherwise what is heard of it ends where one of the texts does
(`Passes.heard_of_exchanged`).
-/

namespace PlacedText

/-- The characters lead from the texts to what is left of them. -/
inductive Passed : List Text → Text → List Text → Prop where
  /-- No step is made. -/
  | stay (ts : List Text) : Passed ts [] ts
  /-- The characters are the front of the first text. -/
  | within {ts : List Text} {a u : Text} (front : ts.headD [] = a ++ u) : Passed ts a (u :: ts.tail)
  /-- All of the first text is passed. -/
  | past {ts ts' : List Text} {a : Text} (later : Passed ts.tail a ts') :
      Passed ts (ts.headD [] ++ a) ts'

namespace Passed

variable {ts ts' ts'' : List Text} {a x y : Text}

/-- The first text is passed as a whole. -/
theorem whole (h : ts.headD [] = a) : Passed ts a ts.tail := by
  have hover : Passed ts (ts.headD [] ++ []) ts.tail := .past (.stay ts.tail)
  rw [List.append_nil, h] at hover
  exact hover

/-- Passing goes on where it stopped. -/
theorem trans (h : Passed ts x ts') (h' : Passed ts' y ts'') : Passed ts (x ++ y) ts'' := by
  induction h with
  | stay ts => exact h'
  | @within ts x u front =>
    cases h' with
    | stay =>
      rw [List.append_nil]
      exact .within front
    | @within _ _ v front' =>
      have hu : u = y ++ v := front'
      apply within
      rw [front, hu, List.append_assoc]
    | @past _ _ b later =>
      -- The rest of the first text is passed as well.
      show Passed ts (x ++ (u ++ b)) ts''
      rw [← List.append_assoc, ← front]
      exact .past later
  | @past ts ts' a later ih =>
    rw [List.append_assoc]
    exact .past (ih h')

/-- Passing can be stopped anywhere. -/
theorem split (h : Passed ts (x ++ y) ts'') : ∃ ts', Passed ts x ts' ∧ Passed ts' y ts'' := by
  generalize ha : x ++ y = a at h
  induction h generalizing x with
  | stay ts =>
    obtain ⟨rfl, rfl⟩ := List.append_eq_nil_iff.1 ha
    exact ⟨ts, .stay ts, .stay ts⟩
  | @within ts a u front =>
    rw [← ha, List.append_assoc] at front
    exact ⟨(y ++ u) :: ts.tail, .within front, .within rfl⟩
  | @past ts ts'' a later ih =>
    rcases List.append_eq_append_iff.1 ha with ⟨c, hc, hy⟩ | ⟨c, hx, hc⟩
    · -- The stop lies in the first text.
      refine ⟨c :: ts.tail, .within hc, ?_⟩
      rw [hy]
      exact .past later
    · obtain ⟨ts', hfirst, hrest⟩ := ih hc.symm
      refine ⟨ts', ?_, hrest⟩
      rw [hx]
      exact .past hfirst

/-- If nothing was passed, an end after that is an end before. -/
theorem headD_eq_nil (h : Passed ts a ts') (ha : a = []) (hend : ts'.headD [] = []) :
    ts.headD [] = [] := by
  cases h with
  | stay => exact hend
  | @within _ _ u front =>
    have hu : u = [] := hend
    rw [front, ha, hu]
    rfl
  | past => exact (List.append_eq_nil_iff.1 ha).1

/-- What was passed when a text has ended is one text after the other. -/
theorem eq_flatten (h : Passed ts a ts') (hend : ts'.headD [] = []) :
    ∃ k, a = (ts.take (k + 1)).flatten := by
  have htake (ts : List Text) (k : Nat) :
      (ts.take (k + 1)).flatten = ts.headD [] ++ (ts.tail.take k).flatten := by
    cases ts with
    | nil => rw [List.tail_nil, List.take_nil, List.take_nil]; rfl
    | cons t ts => rfl
  induction h with
  | stay ts =>
    refine ⟨0, ?_⟩
    rw [htake, hend]
    rfl
  | @within ts a u front =>
    have hu : u = [] := hend
    refine ⟨0, ?_⟩
    rw [htake, front, hu, List.append_nil]
    exact (List.append_nil a).symm
  | @past ts ts' a later ih =>
    obtain ⟨k, hk⟩ := ih hend
    refine ⟨k + 1, ?_⟩
    rw [htake, ← hk]

/-- If there is only the first text, what is passed is its front. -/
theorem eq_append_of_tail (h : Passed ts a ts') (htail : ∀ t ∈ ts.tail, t = []) :
    ts.headD [] = a ++ ts'.headD [] ∧ ∀ t ∈ ts'.tail, t = [] := by
  induction h with
  | stay ts => exact ⟨rfl, htail⟩
  | within front => exact ⟨front, htail⟩
  | @past ts ts' a later ih =>
    have hlater : ∀ t ∈ ts.tail.tail, t = [] := fun t ht => htail t (List.mem_of_mem_tail ht)
    have hnone : ts.tail.headD [] = [] := by
      cases hts : ts.tail with
      | nil => rfl
      | cons t later => exact htail t (hts ▸ List.mem_cons_self)
    obtain ⟨hsplit, hrest⟩ := ih hlater
    rw [hnone] at hsplit
    obtain ⟨ha, hhead⟩ := List.append_eq_nil_iff.1 hsplit.symm
    refine ⟨?_, hrest⟩
    rw [ha, hhead, List.append_nil, List.append_nil]

end Passed

/-! ### Streams -/

/-- An answer to a read of `n` characters that leads from the texts `ts` to the texts `ts'`. -/
structure Answer.PassesOver (n : Nat) (short : Prop) (ts : List Text) (a : Answer CodePoint)
    (ts' : List Text) : Prop where
  passed : Passed ts a.toList ts'
  length_le : a.toList.length ≤ n
  /-- Only where a text has ended is nothing given. -/
  ended : 0 < n → a.toList = [] → ts.headD [] = []
  full : a.toList.length < n → short

variable {σ : Type} [InputStream CodePoint σ]

/-- A relation between texts and streams is **kept by passing** if each answer passes over the
texts, and what is left is related to the stream afterwards. -/
def KeptByPassing (limit : Nat) (F : Fault → Prop) (short : Prop)
    (R : List Text → σ → Prop) : Prop :=
  ∀ ⦃ts : List Text⦄ ⦃s : σ⦄, R ts s → ∀ n,
    (∃ e s', InputStream.read n s = .error e s' ∧ (n ≤ limit → F e)) ∨
      ∃ a s' ts', InputStream.read n s = .ok a s' ∧ a.PassesOver n short ts ts' ∧ R ts' s'

/-- What is heard in exchanges that each lead over some of the texts.  If an empty answer is an end
for `certain`, then there is one where nothing more is heard. -/
theorem Exchanged.heard_of_law {certain : Prop} {R : List Text → σ → Prop} {ts : List Text}
    {s s' : σ} {xs : List Exchange}
    (hlaw : ∀ ⦃ts : List Text⦄ ⦃s s' : σ⦄ ⦃x : Exchange⦄, R ts s →
      InputStream.read x.asked s = .ok x.answer s' → x.Exact ∧ ∃ ts', R ts' s' ∧
        Passed ts x.answer.toList ts' ∧ (certain → 0 < x.asked → x.IsEmpty → ts.headD [] = []))
    (hxs : Exchanged s xs s') (h : R ts s) :
    AllExact xs ∧ ∃ ts', Passed ts (heard xs) ts' ∧
      (certain → (∀ x ∈ xs, 0 < x.asked) → (∃ x ∈ xs, x.IsEmpty) → ts'.headD [] = []) := by
  induction hxs generalizing ts with
  | nil s =>
    refine ⟨fun x hx => absurd hx List.not_mem_nil, ts, .stay ts, fun _ _ hempty => ?_⟩
    obtain ⟨x, hx, -⟩ := hempty
    exact absurd hx List.not_mem_nil
  | @cons s s₁ s' n a xs hread rest ih =>
    obtain ⟨hlength, ts₁, hs₁, hpassed₁, hend₁⟩ := hlaw (x := ⟨n, a⟩) h hread
    obtain ⟨hexact, ts', hpassed, hend⟩ := ih hs₁
    constructor
    · intro x hx
      rcases List.mem_cons.1 hx with rfl | hx
      · exact hlength
      · exact hexact x hx
    · by_cases hempty : (⟨n, a⟩ : Exchange).IsEmpty
      · -- Nothing more is heard.
        refine ⟨ts, ?_, fun hcertain hasked _ => ?_⟩
        · rw [heard, if_pos hempty]
          exact .stay ts
        · exact hend₁ hcertain (hasked ⟨n, a⟩ List.mem_cons_self) hempty
      · refine ⟨ts', ?_, fun hcertain hasked hsome => ?_⟩
        · rw [heard_cons_of_not_empty hempty]
          exact hpassed₁.trans hpassed
        · have hrest : ∃ x ∈ xs, x.IsEmpty := by
            obtain ⟨x, hx, hxempty⟩ := hsome
            rcases List.mem_cons.1 hx with rfl | hx
            · exact absurd hxempty hempty
            · exact ⟨x, hx, hxempty⟩
          exact hend hcertain (fun x hx => hasked x (List.mem_cons_of_mem _ hx)) hrest

/-- A stream passes over texts if a relation that is kept by passing says so. -/
def Passes (limit : Nat) (F : Fault → Prop) (short : Prop) (ts : List Text) (s : σ) : Prop :=
  ∃ R : List Text → σ → Prop, KeptByPassing limit F short R ∧ R ts s

namespace Passes

variable {limit : Nat} {F : Fault → Prop} {short : Prop} {ts : List Text} {s s' : σ}
  {xs : List Exchange}

/-- Passing is itself kept by passing. -/
theorem read (h : Passes limit F short ts s) (n : Nat) :
    (∃ e s', InputStream.read n s = .error e s' ∧ (n ≤ limit → F e)) ∨
      ∃ a s' ts', InputStream.read n s = .ok a s' ∧ a.PassesOver n short ts ts' ∧
        Passes limit F short ts' s' := by
  obtain ⟨R, hkept, hR⟩ := h
  rcases hkept hR n with ⟨e, s', hread, hF⟩ | ⟨a, s', ts', hread, hover, hR'⟩
  · exact .inl ⟨e, s', hread, hF⟩
  · exact .inr ⟨a, s', ts', hread, hover, R, hkept, hR'⟩

/-- A stream without faults always has an answer. -/
theorem read_of_no_fault (h : Passes limit (fun _ => False) short ts s) {n : Nat}
    (hlimit : n ≤ limit) :
    ∃ a s' ts', InputStream.read n s = .ok a s' ∧ a.PassesOver n short ts ts' ∧
      Passes limit (fun _ => False) short ts' s' := by
  rcases h.read n with ⟨e, s', -, hF⟩ | hok
  · exact (hF hlimit).elim
  · exact hok

theorem faultless (h : Passes limit (fun _ => False) short ts s) : Faultless limit s := by
  refine ⟨fun s => ∃ ts, Passes limit (fun _ => False) short ts s, ?_, ts, h⟩
  rintro s ⟨ts, h⟩ n - hlimit
  obtain ⟨a, s', ts', hread, -, hs'⟩ := h.read_of_no_fault hlimit
  exact ⟨a, s', hread, fun _ => ⟨ts', hs'⟩⟩

/-- A stream without faults that passes over one text serves it. -/
theorem serves (h : Passes limit (fun _ => False) short ts s) (htail : ∀ t ∈ ts.tail, t = []) :
    Serves limit (ts.headD []) s := by
  refine ⟨fun t s => ∃ ts, Passes limit (fun _ => False) short ts s ∧ t = ts.headD [] ∧
    ∀ t ∈ ts.tail, t = [], ?_, ts, h, rfl, htail⟩
  rintro t s ⟨ts, h, rfl, htail⟩ n hn hlimit
  obtain ⟨a, s', ts', hread, hover, hs'⟩ := h.read_of_no_fault hlimit
  obtain ⟨hsplit, htail'⟩ := hover.passed.eq_append_of_tail htail
  refine ⟨a, s', ts'.headD [], hread, ⟨hsplit, hover.length_le, ?_⟩, fun _ => ?_⟩
  · exact fun hne hnil => hne (hover.ended hn hnil)
  · exact ⟨ts', hs', rfl, htail'⟩

/-- What is heard of a stream leads over its texts, and an empty answer is the end of one. -/
theorem heard_of_exchanged (h : Passes limit F short ts s) (hxs : Exchanged s xs s') :
    AllExact xs ∧ ∃ ts', Passed ts (heard xs) ts' ∧
      ((∀ x ∈ xs, 0 < x.asked) → (∃ x ∈ xs, x.IsEmpty) → ts'.headD [] = []) := by
  have hlaw : ∀ ⦃ts : List Text⦄ ⦃s s' : σ⦄ ⦃x : Exchange⦄, Passes limit F short ts s →
      InputStream.read x.asked s = .ok x.answer s' → x.Exact ∧ ∃ ts',
        Passes limit F short ts' s' ∧ Passed ts x.answer.toList ts' ∧
        (True → 0 < x.asked → x.IsEmpty → ts.headD [] = []) := by
    intro ts s s' x h hread
    rcases h.read x.asked with ⟨e, s₁, herror, -⟩ | ⟨a, s₁, ts₁, hok, hover, hs₁⟩
    · rw [hread] at herror
      cases herror
    · rw [hread] at hok
      cases hok
      exact ⟨hover.length_le, ts₁, hs₁, hover.passed, fun _ => hover.ended⟩
  obtain ⟨hexact, ts', hpassed, hend⟩ := hxs.heard_of_law hlaw h
  exact ⟨hexact, ts', hpassed, hend trivial⟩

end Passes

/-! ### Devices -/

/-- A part of a device passes over what the device does. -/
theorem Passes.device {limit : Nat} {F : Fault → Prop} {short : Prop} {ts : List Text} {s : σ}
    {wrap : σ → Device}
    (hwrap : ∀ n s, InputStream.read n (wrap s) = Device.embed wrap (InputStream.read n s))
    (h : Passes limit F short ts s) : Passes limit F short ts (wrap s) := by
  refine ⟨fun ts d => ∃ s, d = wrap s ∧ Passes limit F short ts s, ?_, s, rfl, h⟩
  rintro ts d ⟨s, rfl, h⟩ n
  rw [hwrap]
  rcases h.read n with ⟨e, s', hread, hF⟩ | ⟨a, s', ts', hread, hover, hs'⟩
  · rw [hread]
    exact .inl ⟨e, wrap s', rfl, hF⟩
  · rw [hread]
    exact .inr ⟨a, wrap s', ts', rfl, hover, s', rfl, hs'⟩

/-- A part of a device serves what the device does. -/
theorem Serves.device {limit : Nat} {t : Text} {s : σ} {wrap : σ → Device}
    (hwrap : ∀ n s, InputStream.read n (wrap s) = Device.embed wrap (InputStream.read n s))
    (h : Serves limit t s) : Serves limit t (wrap s) := by
  refine ⟨fun t d => ∃ s, d = wrap s ∧ Serves limit t s, ?_, s, rfl, h⟩
  rintro t d ⟨s, rfl, h⟩ n hn hlimit
  obtain ⟨a, s', rest, hread, htakes, hrest⟩ := h.read hn hlimit
  rw [hwrap, hread]
  exact ⟨a, wrap s', rest, rfl, htakes, fun hne => ⟨s', rfl, hrest hne⟩⟩

end PlacedText
