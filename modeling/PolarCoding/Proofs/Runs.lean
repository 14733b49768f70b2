import PolarCoding.Action

/-!
# Runs of actions

How a sequence of actions runs, one step at a time: forwards from what the first action does, and
backwards from a run of the whole, whether it succeeded or not.
-/

namespace PolarCoding.Action

variable {σ α β : Type} {state after : σ} {value : α}

theorem bind_of_ok {action : Action σ α} (run : action state = .ok value after)
    (continuation : α → Action σ β) :
    (action >>= continuation) state = continuation value after := by
  rw [bind_apply, run]

theorem bind_of_error {action : Action σ α} {fault : Fault}
    (run : action state = .error fault after)
    (continuation : α → Action σ β) : (action >>= continuation) state = .error fault after := by
  rw [bind_apply, run]

theorem get_bind (continuation : σ → Action σ β) :
    (get >>= continuation) state = continuation state state :=
  bind_of_ok (get_apply state) continuation

theorem lift_bind_of_ok {outcome : Except Fault α} (run : outcome = .ok value)
    (continuation : α → Action σ β) :
    ((liftM outcome : Action σ α) >>= continuation) state = continuation value state := by
  rw [run, bind_of_ok (lift_ok value state)]

theorem lift_bind_of_error {outcome : Except Fault α} {fault : Fault} (run : outcome = .error fault)
    (continuation : α → Action σ β) :
    ((liftM outcome : Action σ α) >>= continuation) state = .error fault state := by
  rw [run, bind_of_error (lift_error fault state)]

theorem require_bind {condition : Prop} [Decidable condition] {fault : Fault} (holds : condition)
    (continuation : Unit → Action σ β) :
    ((liftM (require condition fault) : Action σ Unit) >>= continuation) state =
      continuation () state :=
  lift_bind_of_ok (require_of holds) continuation

/-- A sequence succeeds only if its first action does and the rest goes on from there. -/
theorem ok_of_bind {action : Action σ α} {continuation : α → Action σ β} {result : β}
    (run : (action >>= continuation) state = .ok result after) :
    ∃ value middle, action state = .ok value middle ∧
      continuation value middle = .ok result after := by
  rw [bind_apply] at run
  cases first : action state with
  | ok value middle =>
      rw [first] at run
      exact ⟨value, middle, rfl, run⟩
  | error fault middle =>
      rw [first] at run
      cases run

/-- A sequence that begins with a check succeeds only if the condition holds. -/
theorem ok_of_require_bind {condition : Prop} [Decidable condition] {fault : Fault}
    {continuation : Unit → Action σ β} {result : β}
    (run : ((liftM (require condition fault) : Action σ Unit) >>= continuation) state =
      .ok result after) :
    condition ∧ continuation () state = .ok result after := by
  by_cases holds : condition
  · rw [require_bind holds] at run
    exact ⟨holds, run⟩
  · rw [lift_bind_of_error (require_of_not holds)] at run
    cases run

/-- A sequence fails in its first action or behind it. -/
theorem error_of_bind {action : Action σ α} {continuation : α → Action σ β} {fault : Fault}
    (run : (action >>= continuation) state = .error fault after) :
    action state = .error fault after ∨
      ∃ value middle, action state = .ok value middle ∧
        continuation value middle = .error fault after := by
  rw [bind_apply] at run
  cases first : action state with
  | ok value middle =>
      rw [first] at run
      exact .inr ⟨value, middle, rfl, run⟩
  | error reported middle =>
      rw [first] at run
      cases run
      exact .inl rfl

/-- A sequence that begins with a check fails because the condition does not hold or behind it. -/
theorem error_of_require_bind {condition : Prop} [Decidable condition] {broken fault : Fault}
    {continuation : Unit → Action σ β}
    (run : ((liftM (require condition broken) : Action σ Unit) >>= continuation) state =
      .error fault after) :
    ¬ condition ∧ fault = broken ∨ condition ∧ continuation () state = .error fault after := by
  by_cases holds : condition
  · rw [require_bind holds] at run
    exact .inr ⟨holds, run⟩
  · rw [lift_bind_of_error (require_of_not holds)] at run
    cases run
    exact .inl ⟨holds, rfl⟩

end PolarCoding.Action
