import CommandConsole.Handler.Action

/-!
# What a program carries out

A program reaches its context through operations alone: the context that it leaves is the result of the
operations that it carries out, one after the other, however it ends.

## Main definitions

- `Action.performed` — the operations that a program carries out in a context

## Main statements

- `Action.run_snd_eq_foldl` — the context left is the result of these operations
-/

namespace CommandConsole

variable {ω α : Type}

@[simp] theorem Context.catalogue_apply (context : Context ω) (operation : Operation ω) :
    (context.apply operation).catalogue = context.catalogue := by
  cases operation <;> rfl

namespace Action

/-- The operations that a program carries out in a context before it ends, in order. -/
def performed : Action ω α → Context ω → List (Operation ω)
  | done _, _ => []
  | stop _, _ => []
  | perform operation next, context => operation :: next.performed (context.apply operation)
  | inspect next, context => (next context).performed context

/-- **A program does what its operations do**, whether or not it ends with a fault. -/
theorem run_snd_eq_foldl (action : Action ω α) (context : Context ω) :
    (action.run context).2 = (action.performed context).foldl Context.apply context := by
  induction action generalizing context with
  | done value => rfl
  | stop fault => rfl
  | perform operation next ih => exact ih (context.apply operation)
  | inspect next ih => exact ih context context

end Action

end CommandConsole
