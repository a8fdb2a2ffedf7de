import PlacedText.Running

/-!
# What a run has come to

An action ends with a value or with an error, and in either case in a state.  `ComesTo P Q result`
says that the value and its state have the property `P`, or else that the state of the error has the
property `Q`.  An error ends a sequence of actions (`ComesTo.bind`), so `Q` is the same for all of
them, while each has a `P` of its own.
-/

namespace PlacedText

open Running

variable {ε σ α β : Type}

/-- A run has ended with a value as in `P`, or with an error in a state as in `Q`. -/
inductive ComesTo (P : α → σ → Prop) (Q : σ → Prop) : EStateM.Result ε σ α → Prop where
  | ok {a : α} {s : σ} (value : P a s) : ComesTo P Q (.ok a s)
  | error {e : ε} {s : σ} (failed : Q s) : ComesTo P Q (.error e s)

namespace ComesTo

variable {P : α → σ → Prop} {Q : σ → Prop} {result : EStateM.Result ε σ α} {s : σ}

theorem of_eq_ok {a : α} (h : ComesTo P Q result) (hresult : result = .ok a s) : P a s := by
  subst hresult
  cases h with
  | ok value => exact value

theorem of_eq_error {e : ε} (h : ComesTo P Q result) (hresult : result = .error e s) : Q s := by
  subst hresult
  cases h with
  | error failed => exact failed

/-- An action after another one. -/
theorem bind {x : EStateM ε σ α} {f : α → EStateM ε σ β} {P' : β → σ → Prop}
    (hx : ComesTo P Q (x s)) (hf : ∀ a s', P a s' → ComesTo P' Q (f a s')) :
    ComesTo P' Q ((x >>= f) s) := by
  rw [bind_apply]
  generalize x s = first at hx ⊢
  cases hx with
  | ok value => exact hf _ _ value
  | error failed => exact .error failed

end ComesTo

end PlacedText
