/-
  Making instances.

  A request for a key demands its provider from a resolver and gets the
  instance from that provider; the provider asks the same resolver for what it
  needs itself.  So the resolver through which a request came answers all
  requests that follow from it, wherever a provider was registered.

  Requests may follow from each other without end.  `Resolver.getInstance`
  takes the depth to which they may be nested and stops when it is used up.
-/
import Injection.Container.World

namespace Injection

/-- Runs a recipe: `ask` makes the instances it asks for, `find` searches for providers. -/
def Recipe.run {α : Type} (ask : Key → Run Instance) (find : Key → Lookup (Option Provider)) :
    Recipe α → Run α
  | .done value => pure value
  | .fail fault => Run.fail fault
  | .abort label => throw (.abort label)
  | .ask key next => do
    let answer ← Run.attempt (ask key)
    (next answer).run ask find
  | .search key next => do
    let answer ← Run.lookup (Lookup.attempt (find key))
    (next (answer.map Option.isSome)).run ask find
  | .newLazy next => do
    let cell ← World.newLazy
    (next cell).run ask find
  | .serial next => do
    let serial ← World.nextSerial
    (next serial).run ask find
  | .note line next => do
    World.note line
    next.run ask find

/-- Makes the instance of a singleton, unless it is made already.  A request for it while it is
    being made is a fault.  What its delegate does not finish leaves no trace. -/
def World.makeOnce (cell : CellId) (delegate : Run Instance) : Run Instance := do
  let state := (← get).singleton cell
  match state.value with
  | some value => return value
  | none =>
    if state.making then Run.fail .reentrantSingleton
    else
      World.modifySingleton cell fun state => { state with making := true }
      let outcome ← Run.ending delegate
      World.modifySingleton cell fun state => { state with making := false }
      let value ← Run.ofEnding outcome
      World.report .singletonMade
      World.modifySingleton cell fun state => { state with value := some value }
      return value

/-- Gets an instance from a provider, which asks `ask` and `find` for what it needs. -/
def Provider.get (ask : Key → Run Instance) (find : Key → Lookup (Option Provider)) :
    Provider → Run Instance
  | .ready value => pure value
  | .self id => do
    match (← MonadState.get).injector? id with
    | some _ => return .injector id
    | none => Run.fail (.notProvided .injector)
  | .factory calls recipe => do
    let call ← World.countCall calls
    (recipe call).run ask find
  | .singleton cell delegate => World.makeOnce cell (delegate.get ask find)

namespace Resolver

def getInstance : Nat → Resolver → Key → Run Instance
  | 0, _, _ => throw .tooDeep
  | depth + 1, resolver, key => do
    let provider ← Run.lookup (resolver.getProvider key)
    provider.get (resolver.getInstance depth) resolver.find

/-- Gets an instance from a provider, whatever key it stands for. -/
def getFrom (depth : Nat) (resolver : Resolver) (provider : Provider) : Run Instance :=
  provider.get (resolver.getInstance depth) resolver.find

/-- Makes the instance of a key, which has to be of a given type. -/
def getTyped (depth : Nat) (resolver : Resolver) (key : Key) (expected : String) :
    Run Instance := do
  let value ← resolver.getInstance depth key
  Run.ofExcept (value.checked key expected)

/-- The injector that a resolver provides. -/
def getInjector (depth : Nat) (resolver : Resolver) : Run InjectorId := do
  match ← resolver.getTyped depth .injector Key.injectorType with
  | .injector id => return id
  | _ => Run.fail (.wrongType .injector Key.injectorType)

end Resolver

end Injection
