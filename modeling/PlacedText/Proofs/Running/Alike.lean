import PlacedText.Running

/-!
# Actions that run alike

Two actions on states of different kinds *run alike* under a relation `R` between the states if from
related states they come to the same value or the same error, in related states again.  They run
alike *until* the first one stops with an error and in a state as in `F`, if nothing is asked of the
second one then.  Actions built in the same way from actions that run alike run alike
(`RunUntil.bind`).

For actions that need not end, `FollowedUntil F R x y` says the same of every run of `x` that ends:
unless it stopped as in `F`, the run of `y` ends, and ends alike.
-/

namespace PlacedText

variable {ε σ τ α β : Type} {F : ε → σ → Prop} {R : σ → τ → Prop}

/-- The same value or the same error, in related states. -/
inductive ResultAlike (R : σ → τ → Prop) :
    EStateM.Result ε σ α → EStateM.Result ε τ α → Prop where
  | ok {a : α} {s : σ} {t : τ} (related : R s t) : ResultAlike R (.ok a s) (.ok a t)
  | error {e : ε} {s : σ} {t : τ} (related : R s t) : ResultAlike R (.error e s) (.error e t)

/-- Related states lead to the same value or the same error, in related states. -/
def RunAlike (R : σ → τ → Prop) (x : EStateM ε σ α) (y : EStateM ε τ α) : Prop :=
  ∀ ⦃s : σ⦄ ⦃t : τ⦄, R s t → ResultAlike R (x s) (y t)

/-- An error and a state as in `F`. -/
def Stopped (F : ε → σ → Prop) (result : EStateM.Result ε σ α) : Prop :=
  ∃ e s, result = .error e s ∧ F e s

/-- The first result is one that stops, or both are alike. -/
def ResultUntil (F : ε → σ → Prop) (R : σ → τ → Prop) (result : EStateM.Result ε σ α)
    (result' : EStateM.Result ε τ α) : Prop :=
  Stopped F result ∨ ResultAlike R result result'

/-- From related states the actions run alike, unless the first one stops. -/
def RunUntil (F : ε → σ → Prop) (R : σ → τ → Prop) (x : EStateM ε σ α) (y : EStateM ε τ α) : Prop :=
  ∀ ⦃s : σ⦄ ⦃t : τ⦄, R s t → ResultUntil F R (x s) (y t)

/-- Whenever the first action ends, the second one ends alike, unless the first one stopped. -/
def FollowedUntil (F : ε → σ → Prop) (R : σ → τ → Prop) (x : PartialM ε σ α)
    (y : PartialM ε τ α) : Prop :=
  ∀ ⦃s : σ⦄ ⦃t : τ⦄, R s t → ∀ ⦃result⦄, x s = some result →
    Stopped F result ∨ ∃ result', y t = some result' ∧ ResultAlike R result result'

/-- A value on the first side is one on the second side. -/
theorem ResultUntil.of_ok {a : α} {s : σ} {result : EStateM.Result ε τ α}
    (h : ResultUntil F R (.ok a s) result) : ∃ t, result = .ok a t ∧ R s t := by
  rcases h with ⟨e, s', herror, -⟩ | halike
  · cases herror
  · cases halike with
    | ok related => exact ⟨_, rfl, related⟩

/-- An error on the first side stops, or is one on the second side. -/
theorem ResultUntil.of_error {e : ε} {s : σ} {result : EStateM.Result ε τ α}
    (h : ResultUntil F R (.error e s) result) : F e s ∨ ∃ t, result = .error e t ∧ R s t := by
  rcases h with ⟨e', s', herror, hF⟩ | halike
  · cases herror
    exact .inl hF
  · cases halike with
    | error related => exact .inr ⟨_, rfl, related⟩

/-- Actions go on alike after first results that are alike. -/
theorem ResultUntil.bind {x : EStateM ε σ α} {y : EStateM ε τ α} {f : α → EStateM ε σ β}
    {g : α → EStateM ε τ β} {s : σ} {t : τ} (hx : ResultUntil F R (x s) (y t))
    (hf : ∀ a s' t', R s' t' → ResultUntil F R (f a s') (g a t')) :
    ResultUntil F R ((x >>= f) s) ((y >>= g) t) := by
  rw [Running.bind_apply, Running.bind_apply]
  rcases hx with ⟨e, s', hstopped, hF⟩ | halike
  · rw [hstopped]
    exact .inl ⟨e, s', rfl, hF⟩
  · -- Both first results are made variables, so that the two cases are those of the relation.
    generalize x s = first at halike ⊢
    generalize y t = first' at halike ⊢
    cases halike with
    | ok hR => exact hf _ _ _ hR
    | error hR => exact .inr (.error hR)

namespace RunUntil

/-- More can count as a stop. -/
theorem mono {G : ε → σ → Prop} {x : EStateM ε σ α} {y : EStateM ε τ α} (h : RunUntil F R x y)
    (hF : ∀ e s, F e s → G e s) : RunUntil G R x y :=
  fun _ _ hR => (h hR).imp_left fun ⟨e, s, hstopped, hstop⟩ => ⟨e, s, hstopped, hF e s hstop⟩

theorem pure (a : α) : RunUntil F R (Pure.pure a : EStateM ε σ α) (Pure.pure a : EStateM ε τ α) :=
  fun _ _ hR => .inr (.ok hR)

theorem throw (e : ε) :
    RunUntil F R (MonadExcept.throw e : EStateM ε σ α) (MonadExcept.throw e : EStateM ε τ α) :=
  fun _ _ hR => .inr (.error hR)

/-- What is built alike from actions that run alike until a stop runs alike until a stop. -/
theorem bind {x : EStateM ε σ α} {y : EStateM ε τ α} {f : α → EStateM ε σ β}
    {g : α → EStateM ε τ β} (hx : RunUntil F R x y) (hf : ∀ a, RunUntil F R (f a) (g a)) :
    RunUntil F R (x >>= f) (y >>= g) :=
  fun _ _ hR => (hx hR).bind fun a _ _ hR' => hf a hR'

end RunUntil

/-- What runs alike does so until any stop. -/
theorem RunAlike.until {x : EStateM ε σ α} {y : EStateM ε τ α} (h : RunAlike R x y) :
    RunUntil F R x y :=
  fun _ _ hR => .inr (h hR)

namespace FollowedUntil

theorem total {x : EStateM ε σ α} {y : EStateM ε τ α} (h : RunUntil F R x y) :
    FollowedUntil F R (PartialM.total x) (PartialM.total y) := by
  rintro s t hR result ⟨⟩
  rcases h hR with hstopped | halike
  · exact .inl hstopped
  · exact .inr ⟨y t, rfl, halike⟩

theorem pure (a : α) :
    FollowedUntil F R (Pure.pure a : PartialM ε σ α) (Pure.pure a : PartialM ε τ α) :=
  total (.pure a)

/-- What is built alike from actions that follow each other until a stop does so as well. -/
theorem bind {x : PartialM ε σ α} {y : PartialM ε τ α} {f : α → PartialM ε σ β}
    {g : α → PartialM ε τ β} (hx : FollowedUntil F R x y)
    (hf : ∀ a, FollowedUntil F R (f a) (g a)) : FollowedUntil F R (x >>= f) (y >>= g) := by
  intro s t hR result hrun
  rw [Running.partial_bind_apply] at hrun
  rw [Running.partial_bind_apply]
  cases hs : x s with
  | none =>
    -- The first action goes on for ever, so the run did not end after all.
    rw [hs] at hrun
    cases hrun
  | some first =>
    rw [hs] at hrun
    rcases hx hR hs with ⟨e, s', rfl, hF⟩ | ⟨first', ht, halike⟩
    · cases hrun
      exact .inl ⟨e, s', rfl, hF⟩
    · rw [ht]
      cases halike with
      | ok hR' => exact hf _ hR' hrun
      | error hR' =>
        cases hrun
        exact .inr ⟨_, rfl, .error hR'⟩

end FollowedUntil

end PlacedText
