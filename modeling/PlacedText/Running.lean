/-!
# Running actions

Actions on sources and readers are `EStateM` programs: they end with a value or an error, and in
either case in a state.  An action that asks a stream again and again need not end at all, since a
stream may go on for ever; such actions are `PartialM` programs, and one that does not end has no
result.  The lemmas of this module take a run apart at each step.
-/

namespace PlacedText

/-- Actions on a state that need not end; `none` stands for one that goes on for ever. -/
def PartialM (ε σ α : Type) : Type := σ → Option (EStateM.Result ε σ α)

namespace PartialM

variable {ε σ α β : Type}

/-- An action that always ends. -/
def total (x : EStateM ε σ α) : PartialM ε σ α := fun s => some (x s)

/-- Does one action and then another, unless the first goes on for ever or ends with an error. -/
def bind (x : PartialM ε σ α) (f : α → PartialM ε σ β) : PartialM ε σ β := fun s =>
  match x s with
  | none => none
  | some (.ok a s') => f a s'
  | some (.error e s') => some (.error e s')

instance : Monad (PartialM ε σ) where
  pure a := total (pure a)
  bind := bind

end PartialM

namespace Running

variable {ε σ α β : Type}

/-- The state in which an action has ended, with a value or with an error. -/
def endState : EStateM.Result ε σ α → σ
  | .ok _ s => s
  | .error _ s => s

theorem get_apply (s : σ) : (get : EStateM ε σ σ) s = .ok s s := rfl

theorem modify_apply (f : σ → σ) (s : σ) : (modify f : EStateM ε σ Unit) s = .ok () (f s) := rfl

theorem bind_apply (x : EStateM ε σ α) (f : α → EStateM ε σ β) (s : σ) :
    (x >>= f) s = match x s with
      | .ok a s' => f a s'
      | .error e s' => .error e s' := rfl

/-- A sequence of two actions ends with a value if both do. -/
theorem bind_eq_ok_iff {x : EStateM ε σ α} {f : α → EStateM ε σ β} {s t : σ} {b : β} :
    (x >>= f) s = .ok b t ↔ ∃ a u, x s = .ok a u ∧ f a u = .ok b t := by
  rw [bind_apply]
  cases x s <;> simp [and_assoc]

/-! ### Actions that need not end -/

theorem total_apply (x : EStateM ε σ α) (s : σ) : PartialM.total x s = some (x s) := rfl

theorem partial_bind_apply (x : PartialM ε σ α) (f : α → PartialM ε σ β) (s : σ) :
    (x >>= f) s = match x s with
      | none => none
      | some (.ok a s') => f a s'
      | some (.error e s') => some (.error e s') := rfl

end Running

end PlacedText
