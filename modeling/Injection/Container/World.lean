/-
  The state that requests for instances read and change.

  The world holds what has an identity: injectors, the cells of singletons and
  of lazy handles, the counters of factories.  All else is plain data inside
  resolvers and instances, which refer to the world by numbers.
-/
import Injection.Container.Resolver

namespace Injection

/-- An injector: the registry it was configured with, that registry as its resolver interceptors
    wrapped it, and what its children inherit. -/
structure Injector where
  registry : Registry
  inner : Resolver
  parent : Option InjectorId
  resolverInterceptors : List ResolverInterceptor
  providerInterceptors : List ProviderInterceptor

/-- The resolver that stands for an injector. -/
def Injector.resolver (injector : Injector) (id : InjectorId) : Resolver :=
  .injector id injector.providerInterceptors injector.inner

def Injector.describe (injector : Injector) : String :=
  "Injector \x7b registry: " ++ injector.registry.describe ++ ", has_parent: "
    ++ (if injector.parent.isSome then "true" else "false") ++ ", resolver_interceptors: "
    ++ toString injector.resolverInterceptors.length ++ ", provider_interceptors: "
    ++ toString injector.providerInterceptors.length ++ " \x7d"

/-- What a number of an injector stands for. -/
inductive InjectorSlot where
  | pending
  | live (injector : Injector)
  /-- No longer held by anything, or never finished. -/
  | gone

/-- The state of a singleton: its instance once it is made, and whether it is being made. -/
structure SingletonCell where
  value : Option Instance
  making : Bool

/-- Everything that has an identity, and the journal. -/
structure World where
  injectors : Array InjectorSlot
  singletons : Array SingletonCell
  lazies : Array (Option Instance)
  counters : Array Nat
  serial : Nat
  journal : Journal

def World.empty : World := ⟨#[], #[], #[], #[], 0, .empty⟩

/-- Why a computation in the world stops without a value. -/
inductive Stop where
  | fault (fault : Fault)
  /-- A factory broke off; the label tells which. -/
  | abort (label : String)
  /-- Requests were nested deeper than allowed. -/
  | tooDeep

/-- Computations in the world.  What they changed before they stop stays changed. -/
abbrev Run := ExceptT Stop (StateM World)

namespace Run

variable {α : Type}

def fail (fault : Fault) : Run α := throw (.fault fault)

/-- Goes on with an outcome, or stops with its fault. -/
def ofExcept : Except Fault α → Run α
  | .ok value => pure value
  | .error fault => fail fault

/-- Looks something up, writing into the world's journal. -/
def lookup (lookup : Lookup α) : Run α := do
  let outcome ← modifyGet fun world =>
    let (outcome, journal) := lookup.run.run world.journal
    (outcome, { world with journal })
  ofExcept outcome

/-- The end of a computation as a value, whether it stops or not. -/
def ending (run : Run α) : Run (Except Stop α) := ExceptT.lift run.run

/-- Goes on with the end of a computation, or stops as it did. -/
def ofEnding : Except Stop α → Run α
  | .ok value => pure value
  | .error stop => throw stop

/-- The outcome of a computation as a value, unless it stops otherwise than with a fault. -/
def attempt (run : Run α) : Run (Except Fault α) := do
  match ← ending run with
  | .ok value => return .ok value
  | .error (.fault fault) => return .error fault
  | .error stop => throw stop

end Run

/-! ## Injectors -/

namespace World

/-- The injector with a number, if it is alive. -/
def injector? (world : World) (id : InjectorId) : Option Injector :=
  match world.injectors[id]? with
  | some (.live injector) => some injector
  | _ => none

/-- Takes a number for an injector that is yet to be configured. -/
def newInjector : Run InjectorId :=
  modifyGet fun world =>
    (world.injectors.size, { world with injectors := world.injectors.push .pending })

def setInjector (id : InjectorId) (slot : InjectorSlot) : Run Unit :=
  modify fun world => { world with injectors := world.injectors.setIfInBounds id slot }

/-! ## Factories -/

/-- Takes a counter for a factory that was not called yet. -/
def newCounter : Run CounterId :=
  modifyGet fun world =>
    (world.counters.size, { world with counters := world.counters.push 0 })

/-- Counts a call of a factory; the number of the call. -/
def countCall (id : CounterId) : Run Nat :=
  modifyGet fun world =>
    let call := world.counters.getD id 0 + 1
    (call, { world with counters := world.counters.setIfInBounds id call })

def nextSerial : Run Nat :=
  modifyGet fun world => (world.serial + 1, { world with serial := world.serial + 1 })

def note (line : String) : Run Unit := Run.lookup (Lookup.note line)

def report (event : Event) : Run Unit := Run.lookup (Lookup.report event)

/-! ## Singletons and lazy handles -/

/-- Takes a cell for a singleton that was not made yet. -/
def newSingleton : Run CellId :=
  modifyGet fun world =>
    (world.singletons.size, { world with singletons := world.singletons.push ⟨none, false⟩ })

def singleton (world : World) (cell : CellId) : SingletonCell :=
  world.singletons.getD cell ⟨none, false⟩

def modifySingleton (cell : CellId) (f : SingletonCell → SingletonCell) : Run Unit :=
  modify fun world => { world with singletons := world.singletons.modify cell f }

/-- Takes a cell for a lazy handle that has no instance yet. -/
def newLazy : Run LazyId :=
  modifyGet fun world => (world.lazies.size, { world with lazies := world.lazies.push none })

/-- The instance of a lazy handle, if it has one. -/
def lazy? (world : World) (cell : LazyId) : Option Instance := (world.lazies[cell]?).join

def setLazy (cell : LazyId) (value : Instance) : Run Unit :=
  modify fun world => { world with lazies := world.lazies.setIfInBounds cell (some value) }

end World

end Injection
