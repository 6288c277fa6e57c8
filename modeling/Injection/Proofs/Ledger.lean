/-
  Requests that take down what they use.

  What a request gives is made from what other providers gave, and these were
  found through the resolver that was asked; but the instance of a singleton was
  made when it was asked for first, through whatever resolver that was.

  * `Ledger`: a world, with the providers that went into what is being made and,
    for the instance of each singleton, into that;
  * `Resolver.trace`: requests that keep the ledger;
  * `Resolver.trace_follows`: besides that they do what requests do.
-/
import Injection.Proofs.Singletons

namespace Injection

/-! ## The ledger -/

/-- A provider that was found for a key through a resolver. -/
structure Source where
  via : Resolver
  key : Key
  provider : Provider

/-- The instance of a singleton, the resolver through which it was made, and what went into it. -/
structure Kept where
  cell : CellId
  via : Resolver
  value : Instance
  sources : List Source

structure Ledger where
  world : World
  /-- The instances of singletons, the one made last first. -/
  kept : List Kept
  /-- The providers that were asked for what is being made. -/
  used : List Source

namespace Ledger

/-- What went into the instance of a singleton. -/
def sourcesOf (ledger : Ledger) (cell : CellId) : List Source :=
  match ledger.kept.find? (·.cell == cell) with
  | some kept => kept.sources
  | none => []

/-- A provider was asked. -/
def use (ledger : Ledger) (sources : List Source) : Ledger :=
  { ledger with used := sources ++ ledger.used }

/-- The delegate of a singleton begins to run, on an account of its own. -/
def started (ledger : Ledger) (cell : CellId) : Ledger :=
  { ledger with world := ledger.world.started cell, used := [] }

/-- The delegate of a singleton has stopped; `earlier` is the account from before it began. -/
def stopped (ledger : Ledger) (cell : CellId) (earlier : List Source) : Ledger :=
  { ledger with world := ledger.world.stopped cell, used := ledger.used ++ earlier }

/-- The instance of a singleton is there, made through the resolver `via`. -/
def finished (ledger : Ledger) (cell : CellId) (via : Resolver) (value : Instance)
    (earlier : List Source) : Ledger where
  world := ((ledger.world.stopped cell).reported .singletonMade).filled cell value
  kept := ⟨cell, via, value, ledger.used⟩ :: ledger.kept
  used := ledger.used ++ earlier

end Ledger

/-! ## Computations that keep the ledger -/

/-- Computations in the world that keep a ledger. -/
abbrev Traced := ExceptT Stop (StateM Ledger)

namespace Traced

variable {α β : Type}

/-- Does in the ledger's world what a computation does. -/
def perform (run : Run α) : Traced α :=
  ExceptT.mk fun ledger =>
    let (outcome, world) := run.run.run ledger.world
    (outcome, { ledger with world })

def use (sources : List Source) : Traced Unit := modify (·.use sources)

/-- The outcome of a computation as a value, unless it stops otherwise than with a fault. -/
def attempt (traced : Traced α) : Traced (Except Fault α) := do
  match ← ExceptT.lift traced.run with
  | .ok value => return .ok value
  | .error (.fault fault) => return .error fault
  | .error stop => throw stop

/-- Makes the instance of a singleton, unless it is made already. -/
def makeOnce (via : Resolver) (cell : CellId) (delegate : Traced Instance) : Traced Instance :=
  ExceptT.mk fun ledger =>
    match (ledger.world.singleton cell).value with
    | some value => (.ok value, ledger.use (ledger.sourcesOf cell))
    | none =>
      if (ledger.world.singleton cell).making then (.error (.fault .reentrantSingleton), ledger)
      else
        match delegate.run.run (ledger.started cell) with
        | (.ok value, made) => (.ok value, made.finished cell via value ledger.used)
        | (.error stop, made) => (.error stop, made.stopped cell ledger.used)

end Traced

open Traced (perform)

/-- Runs a recipe as `Recipe.run` does. -/
def Recipe.trace {α : Type} (ask : Key → Traced Instance) (find : Key → Lookup (Option Provider)) :
    Recipe α → Traced α
  | .done value => pure value
  | .fail fault => throw (.fault fault)
  | .abort label => throw (.abort label)
  | .ask key next => do
    let answer ← Traced.attempt (ask key)
    (next answer).trace ask find
  | .search key next => do
    let answer ← perform (Run.lookup (Lookup.attempt (find key)))
    (next (answer.map Option.isSome)).trace ask find
  | .newLazy next => do
    let cell ← perform World.newLazy
    (next cell).trace ask find
  | .serial next => do
    let serial ← perform World.nextSerial
    (next serial).trace ask find
  | .note line next => do
    perform (World.note line)
    next.trace ask find

/-- Gets an instance from a provider as `Provider.get` does, for a request through `via`. -/
def Provider.trace (via : Resolver) (ask : Key → Traced Instance)
    (find : Key → Lookup (Option Provider)) : Provider → Traced Instance
  | .ready value => pure value
  | .self id => perform do
    match (← MonadState.get).injector? id with
    | some _ => return .injector id
    | none => Run.fail (.notProvided .injector)
  | .factory calls recipe => do
    let call ← perform (World.countCall calls)
    (recipe call).trace ask find
  | .singleton cell delegate => Traced.makeOnce via cell (delegate.trace via ask find)

/-- Makes the instance of a key as `Resolver.getInstance` does, and takes down every provider that
    is asked for it. -/
def Resolver.trace : Nat → Resolver → Key → Traced Instance
  | 0, _, _ => throw .tooDeep
  | depth + 1, resolver, key => do
    let provider ← perform (Run.lookup (resolver.getProvider key))
    Traced.use [⟨resolver, key, provider⟩]
    provider.trace resolver (resolver.trace depth) resolver.find

/-! ## What the ledger leaves alone -/

namespace Traced

variable {α β : Type}

theorem makeOnce_run (via : Resolver) (cell : CellId) (delegate : Traced Instance)
    (ledger : Ledger) :
    (makeOnce via cell delegate).run.run ledger =
      match (ledger.world.singleton cell).value with
      | some value => (.ok value, ledger.use (ledger.sourcesOf cell))
      | none =>
        if (ledger.world.singleton cell).making then (.error (.fault .reentrantSingleton), ledger)
        else
          match delegate.run.run (ledger.started cell) with
          | (.ok value, made) => (.ok value, made.finished cell via value ledger.used)
          | (.error stop, made) => (.error stop, made.stopped cell ledger.used) := rfl

/-- A computation that keeps a ledger ends as another one does, and leaves the same world. -/
def Follows (traced : Traced α) (run : Run α) : Prop :=
  ∀ ledger, run.run.run ledger.world =
    ((traced.run.run ledger).1, (traced.run.run ledger).2.world)

namespace Follows

theorem perform (run : Run α) : Follows (perform run) run := fun _ => rfl

theorem pure (a : α) : Follows (pure a) (pure a) := fun _ => rfl

theorem throw (stop : Stop) : Follows (throw stop : Traced α) (throw stop) := fun _ => rfl

theorem bind {traced : Traced α} {run : Run α} {f : α → Traced β} {f' : α → Run β}
    (h : Follows traced run) (hf : ∀ a, Follows (f a) (f' a)) :
    Follows (traced >>= f) (run >>= f') := by
  intro ledger
  have hfirst := h ledger
  rw [ExceptT.run_bind, StateT.run_bind, hfirst, ExceptT.run_bind, StateT.run_bind]
  rcases htraced : traced.run.run ledger with ⟨stop | a, between⟩
  · rfl
  · exact hf a between

/-- To take down a provider leaves the world alone. -/
theorem use_bind {f : Unit → Traced α} {run : Run α} (sources : List Source)
    (h : Follows (f ()) run) : Follows (use sources >>= f) run :=
  fun ledger => h (ledger.use sources)

theorem attempt {traced : Traced α} {run : Run α} (h : Follows traced run) :
    Follows (attempt traced) (Run.attempt run) := by
  have hending : Follows (ExceptT.lift traced.run) (Run.ending run) := fun ledger => by
    show (Except.ok (run.run.run ledger.world).1, (run.run.run ledger.world).2) = _
    rw [h ledger]
    rfl
  refine bind hending fun outcome => ?_
  match outcome with
  | .ok a => exact pure (Except.ok a)
  | .error (.fault fault) => exact pure (Except.error fault)
  | .error (.abort label) => exact throw (.abort label)
  | .error .tooDeep => exact throw .tooDeep

theorem makeOnce (via : Resolver) (cell : CellId) {traced : Traced Instance} {run : Run Instance}
    (h : Follows traced run) : Follows (makeOnce via cell traced) (World.makeOnce cell run) := by
  intro ledger
  rw [makeOnce_run]
  cases hvalue : (ledger.world.singleton cell).value with
  | some value =>
    rw [World.makeOnce_of_value hvalue]
    rfl
  | none =>
    cases hmaking : (ledger.world.singleton cell).making with
    | true =>
      rw [World.makeOnce_of_making hvalue hmaking]
      rfl
    | false =>
      have hrun : run.run.run (ledger.world.started cell) = _ := h (ledger.started cell)
      rw [World.makeOnce_of_idle hvalue hmaking, hrun]
      rcases traced.run.run (ledger.started cell) with ⟨stop | value, made⟩
      · rfl
      · rfl

end Follows

end Traced

section

variable {via : Resolver} {ask : Key → Traced Instance} {ask' : Key → Run Instance}
  {find : Key → Lookup (Option Provider)}

open Traced (Follows)

theorem Recipe.trace_follows {α : Type} (hask : ∀ key, Follows (ask key) (ask' key))
    (recipe : Recipe α) : Follows (recipe.trace ask find) (recipe.run ask' find) := by
  induction recipe with
  | done value => exact .pure value
  | fail fault => exact .throw (.fault fault)
  | abort label => exact .throw (.abort label)
  | ask key next ih => exact .bind (.attempt (hask key)) ih
  | search key next ih => exact .bind (.perform _) fun answer => ih _
  | newLazy next ih => exact .bind (.perform _) ih
  | serial next ih => exact .bind (.perform _) ih
  | note line next ih => exact .bind (.perform _) fun _ => ih

theorem Provider.trace_follows (hask : ∀ key, Follows (ask key) (ask' key)) (provider : Provider) :
    Follows (provider.trace via ask find) (provider.get ask' find) := by
  induction provider with
  | ready value => exact .pure value
  | self id => exact .perform _
  | factory calls recipe =>
    exact .bind (.perform _) fun call => Recipe.trace_follows hask (recipe call)
  | singleton cell delegate ih => exact .makeOnce via cell ih

end

/-- A request that keeps a ledger gives what the request gives, and leaves the same world. -/
theorem Resolver.trace_follows (depth : Nat) (resolver : Resolver) (key : Key) :
    Traced.Follows (resolver.trace depth key) (resolver.getInstance depth key) := by
  induction depth generalizing key with
  | zero => exact .throw .tooDeep
  | succ depth ih =>
    exact .bind (.perform _) fun provider => .use_bind _ (provider.trace_follows ih)

end Injection
