/-
  Recipes: how factories make instances.

  A recipe is a program that asks for what it needs and goes on with the
  answer.  Whom it asks is decided when it runs, so a recipe does not depend on
  where its factory was registered.
-/
import Injection.Container.Instance

namespace Injection

/-- A program that makes a value of type `α`. -/
inductive Recipe (α : Type) where
  | done (value : α)
  | fail (fault : Fault)
  /-- Breaks off without a fault; the label tells who did. -/
  | abort (label : String)
  | ask (key : Key) (next : Except Fault Instance → Recipe α)
  | search (key : Key) (next : Except Fault Bool → Recipe α)
  /-- Takes a new cell for a lazy handle. -/
  | newLazy (next : LazyId → Recipe α)
  | serial (next : Nat → Recipe α)
  | note (line : String) (next : Recipe α)

namespace Recipe

variable {α β : Type}

/-- Runs a recipe, and then the one that its value gives. -/
def bind : Recipe α → (α → Recipe β) → Recipe β
  | .done value, f => f value
  | .fail fault, _ => .fail fault
  | .abort label, _ => .abort label
  | .ask key next, f => .ask key fun answer => (next answer).bind f
  | .search key next, f => .search key fun answer => (next answer).bind f
  | .newLazy next, f => .newLazy fun cell => (next cell).bind f
  | .serial next, f => .serial fun n => (next n).bind f
  | .note line next, f => .note line (next.bind f)

instance : Monad Recipe where
  pure := .done
  bind := .bind

/-- Goes on with an outcome, or fails with its fault. -/
def ofExcept : Except Fault α → Recipe α
  | .ok value => .done value
  | .error fault => .fail fault

/-- Asks for the instance of a key, and fails if there is none. -/
def request (key : Key) : Recipe Instance := .ask key ofExcept

/-- Asks for an instance of a given type. -/
def requestTyped (key : Key) (expected : String) : Recipe Instance :=
  .ask key fun answer => ofExcept (answer.bind (Instance.checked key expected))

/-- A handle for a key, bound to the injector that provides itself. -/
def handle (key : Key) (expected : String) : Recipe Handle := do
  match ← requestTyped .injector Key.injectorType with
  | .injector id => return ⟨id, key, expected⟩
  | _ => .fail (.wrongType .injector Key.injectorType)

end Recipe

end Injection
