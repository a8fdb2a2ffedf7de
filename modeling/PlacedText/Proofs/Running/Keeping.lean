import PlacedText.Running

/-!
# What actions keep

An action *keeps* a property of states if it does so however it ends, with a value or with an error.
Actions put together from actions that keep a property keep it as well (`Keeps.bind`), so that an
invariant has to be checked only where a state is changed.
-/

namespace PlacedText

variable {ε σ α β : Type}

/-- However the action ends, the property holds afterwards if it held before. -/
def Keeps (I : σ → Prop) (x : EStateM ε σ α) : Prop :=
  ∀ ⦃s : σ⦄, I s → I (Running.endState (x s))

namespace Keeps

variable {I : σ → Prop}

theorem pure (a : α) : Keeps I (Pure.pure a : EStateM ε σ α) := fun _ h => h

theorem throw (e : ε) : Keeps I (MonadExcept.throw e : EStateM ε σ α) := fun _ h => h

theorem get : Keeps I (MonadState.get : EStateM ε σ σ) := fun _ h => h

theorem of_modify {f : σ → σ} (hf : ∀ s, I s → I (f s)) :
    Keeps I (modify f : EStateM ε σ Unit) := fun s h => hf s h

/-- An action after another one. -/
theorem bind {x : EStateM ε σ α} {f : α → EStateM ε σ β} (hx : Keeps I x)
    (hf : ∀ a, Keeps I (f a)) : Keeps I (x >>= f) := by
  intro s h
  have hfirst : I (Running.endState (x s)) := hx h
  rw [Running.bind_apply]
  cases hxs : x s with
  | ok a s' =>
    rw [hxs] at hfirst
    exact hf a hfirst
  | error e s' =>
    rw [hxs] at hfirst
    exact hfirst

end Keeps

end PlacedText
