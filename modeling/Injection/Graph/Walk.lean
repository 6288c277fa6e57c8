/-
  Walks: steps that are repeated until there is nothing left to do.

  The walks over a graph keep their own lists of what is still to be done, and
  take as many steps as that is.
-/

namespace Injection

/-- Steps until a state is final, at most `steps` times. -/
@[specialize] def Walk.run {State : Type} (isDone : State → Bool) (step : State → State) :
    Nat → State → State
  | 0, state => state
  | steps + 1, state => if isDone state then state else run isDone step steps (step state)

end Injection
