import PlacedText.Proofs.Stream.Serving

/-!
# Exchanges with a stream

An exchange is the size that a stream was asked for and the answer that it gave.  `Exchanged s xs
s'` says that the exchanges `xs` lead from the stream `s` to the stream `s'`.  What can be heard of
a stream is the text of its answers up to the first one that is empty (`heard`): whoever asks a
stream takes an empty answer for the end of the data, whatever would come after it.

A stream is *faultless* if it does not fail up to its first empty answer.  Nothing else is asked of
it: its answers may be longer than what was asked for.
-/

namespace PlacedText

variable {σ : Type} [InputStream CodePoint σ]

/-- What a stream was asked for and what it gave. -/
structure Exchange where
  asked : Nat
  answer : Answer CodePoint

namespace Exchange

/-- The answer was empty. -/
def IsEmpty (x : Exchange) : Prop := x.answer.toList = []

/-- The answer was no longer than what was asked for. -/
def Exact (x : Exchange) : Prop := x.answer.toList.length ≤ x.asked

instance (x : Exchange) : Decidable x.IsEmpty := inferInstanceAs (Decidable (_ = _))

end Exchange

/-- The exchanges that lead from one stream to another. -/
inductive Exchanged : σ → List Exchange → σ → Prop where
  | nil (s : σ) : Exchanged s [] s
  | cons {s s' s'' : σ} {n : Nat} {a : Answer CodePoint} {xs : List Exchange}
      (read : InputStream.read n s = .ok a s') (rest : Exchanged s' xs s'') :
      Exchanged s (⟨n, a⟩ :: xs) s''

/-- One more exchange at the end. -/
theorem Exchanged.snoc {s s' s'' : σ} {xs : List Exchange} {n : Nat} {a : Answer CodePoint}
    (h : Exchanged s xs s') (read : InputStream.read n s' = .ok a s'') :
    Exchanged s (xs ++ [⟨n, a⟩]) s'' := by
  induction h with
  | nil s => exact .cons read (.nil s'')
  | cons hread _ ih => exact .cons hread (ih read)

/-! ### What is heard -/

/-- The text of the answers up to the first one that is empty. -/
def heard : List Exchange → Text
  | [] => []
  | x :: xs => if x.IsEmpty then [] else x.answer.toList ++ heard xs

theorem heard_cons_of_not_empty {x : Exchange} (h : ¬x.IsEmpty) (xs : List Exchange) :
    heard (x :: xs) = x.answer.toList ++ heard xs := if_neg h

theorem heard_singleton (x : Exchange) : heard [x] = x.answer.toList := by
  by_cases hx : x.IsEmpty
  · rw [heard, if_pos hx]
    exact hx.symm
  · rw [heard_cons_of_not_empty hx]
    exact List.append_nil _

/-- As long as no answer was empty, each answer is heard. -/
theorem heard_snoc {xs : List Exchange} (h : ∀ x ∈ xs, ¬x.IsEmpty) (x : Exchange) :
    heard (xs ++ [x]) = heard xs ++ x.answer.toList := by
  induction xs with
  | nil => exact heard_singleton x
  | cons y xs ih =>
    have hy : ¬y.IsEmpty := h y List.mem_cons_self
    have hxs : ∀ x ∈ xs, ¬x.IsEmpty := fun x hx => h x (List.mem_cons_of_mem _ hx)
    rw [List.cons_append, heard_cons_of_not_empty hy, heard_cons_of_not_empty hy, ih hxs,
      List.append_assoc]

/-- No answer was longer than what was asked for. -/
def AllExact (xs : List Exchange) : Prop := ∀ x ∈ xs, x.Exact

/-- Earlier exchanges are among the later ones. -/
theorem AllExact.of_grown {xs xs' : List Exchange} (h : AllExact xs') (hgrown : xs <+: xs') :
    AllExact xs := fun x hx => h x (hgrown.subset hx)

/-! ### Streams without faults -/

/-- A property of streams is **kept without faults** if reading up to `limit` characters gives an
answer, and keeps the property unless the answer is empty. -/
def KeptWithoutFaults (limit : Nat) (P : σ → Prop) : Prop :=
  ∀ ⦃s : σ⦄, P s → ∀ n, 0 < n → n ≤ limit →
    ∃ a s', InputStream.read n s = .ok a s' ∧ (a.toList ≠ [] → P s')

/-- A stream that does not fail up to its first empty answer. -/
def Faultless (limit : Nat) (s : σ) : Prop := ∃ P : σ → Prop, KeptWithoutFaults limit P ∧ P s

/-- Being faultless is itself kept without faults. -/
theorem Faultless.read {limit n : Nat} {s : σ} (h : Faultless limit s) (hn : 0 < n)
    (hlimit : n ≤ limit) :
    ∃ a s', InputStream.read n s = .ok a s' ∧ (a.toList ≠ [] → Faultless limit s') := by
  obtain ⟨P, hkept, hP⟩ := h
  obtain ⟨a, s', hread, hs'⟩ := hkept hP n hn hlimit
  exact ⟨a, s', hread, fun hne => ⟨P, hkept, hs' hne⟩⟩

/-- A stream that serves a text is faultless. -/
theorem Serves.faultless {limit : Nat} {t : Text} {s : σ} (h : Serves limit t s) :
    Faultless limit s := by
  refine ⟨fun s => ∃ t, Serves limit t s, ?_, t, h⟩
  rintro s ⟨t, hserves⟩ n hn hlimit
  obtain ⟨a, s', rest, hread, htakes, hrest⟩ := hserves.read hn hlimit
  refine ⟨a, s', hread, fun hne => ⟨rest, hrest ?_⟩⟩
  rintro rfl
  exact hne (List.append_eq_nil_iff.1 htakes.eq_append.symm).1

/-- A script in which no item is an error is faultless, overlong or not. -/
theorem Script.faultless {limit : Nat} {s : Script CodePoint}
    (h : ∀ item ∈ s.items, ∀ message, item ≠ .fail message) : Faultless limit s := by
  refine ⟨fun s => ∀ item ∈ s.items, ∀ message, item ≠ .fail message, ?_, h⟩
  intro s hs n hn hlimit
  show ∃ a s', Script.read n s = .ok a s' ∧ _
  unfold Script.read
  cases hitems : s.items with
  | nil => exact ⟨_, _, rfl, fun hne => absurd rfl hne⟩
  | cons item items =>
    have hrest : ∀ item ∈ items, ∀ message, item ≠ .fail message := fun i hi =>
      hs i (hitems ▸ List.mem_cons_of_mem _ hi)
    cases item with
    | notReady => exact ⟨_, _, rfl, fun _ => hrest⟩
    | fail message => exact absurd rfl (hs _ (hitems ▸ List.mem_cons_self) message)
    | units us =>
      by_cases hwhole : (s.overlong || (us.drop n).isEmpty) = true
      · simp only [hwhole, ↓reduceIte]
        exact ⟨_, _, rfl, fun _ => hrest⟩
      · simp only [hwhole, Bool.false_eq_true, ↓reduceIte]
        refine ⟨_, _, rfl, fun _ item hitem message => ?_⟩
        rcases List.mem_cons.1 hitem with rfl | hitem
        · intro heq; cases heq
        · exact hrest item hitem message

end PlacedText
