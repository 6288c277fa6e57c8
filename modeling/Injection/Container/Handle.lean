/-
  Deferred handles.

  A handle names an injector and a key, and asks for the instance when it is
  asked itself.  A plain handle asks each time; a lazy one asks until it gets
  an instance, which it keeps.  A handle does not keep its injector alive: once
  the injector is gone, asking it is a fault.
-/
import Injection.Container.Resolution

namespace Injection

namespace Handle

/-- A handle bound to the injector that a resolver provides. -/
def ofResolver (depth : Nat) (resolver : Resolver) (key : Key) (expected : String) :
    Run Handle := do
  return ⟨← resolver.getInjector depth, key, expected⟩

def get (depth : Nat) (handle : Handle) : Run Instance := do
  match (← MonadState.get).injector? handle.injector with
  | some injector => (injector.resolver handle.injector).getTyped depth handle.key handle.expected
  | none => Run.fail (.injectorGone handle.key)

/-- The instance kept in a cell, or else what the handle gives, which is kept from then on. -/
def getLazy (depth : Nat) (handle : Handle) (cell : LazyId) : Run Instance := do
  match (← MonadState.get).lazy? cell with
  | some value => return value
  | none =>
    let value ← handle.get depth
    World.setLazy cell value
    return value

def describe (handle : Handle) : String :=
  "TypedProvider \x7b key: " ++ handle.key.describe ++ " \x7d"

def describeLazy (handle : Handle) (resolved : Bool) : String :=
  "Lazy \x7b key: " ++ handle.key.describe ++ ", resolved: "
    ++ (if resolved then "true" else "false") ++ " \x7d"

end Handle

end Injection
