/-
  The names of a script, and what its answers show of a container.
-/
import Injection.Container.Handle
import Injection.Container.Lifetime
import Injection.Session.Making

namespace Injection.Session

/-! ## Names -/

/-- What the name of a resolver stands for. -/
inductive Named where
  /-- A registry.  Once it is shared with something else it does not change any more. -/
  | registry (registry : Registry) (shared : Bool)
  | injector (id : InjectorId)
  | resolver (resolver : Resolver)

/-- A deferred handle; a lazy one has a cell. -/
structure NamedHandle where
  handle : Handle
  cell : Option LazyId

/-- The world and the names of a script.  A saved singleton is also a saved provider. -/
structure State where
  world : World
  resolvers : NameMap Named
  providers : NameMap Provider
  singletons : NameMap (CellId × Provider)
  handles : NameMap NamedHandle
  /-- Whether a name was taken from what it stood for, so that nothing may hold that any more. -/
  loosened : Bool

namespace State

def empty : State := ⟨.empty, .empty, .empty, .empty, .empty, false⟩

/-- The first name that stands for an injector. -/
def injectorName? (state : State) (id : InjectorId) : Option String :=
  (state.resolvers.find? fun pair =>
    match pair.2 with
    | .injector other => other == id
    | _ => false).map (·.1)

/-! ### Giving names -/

def nameResolver (name : String) (named : Named) (state : State) : State :=
  { state with
    resolvers := state.resolvers.insert name named
    loosened := state.loosened || state.resolvers.contains name }

/-- Puts a registry that holds all that the registry of a name holds in its place. -/
def extendRegistry (name : String) (registry : Registry) (shared : Bool) (state : State) : State :=
  { state with resolvers := state.resolvers.insert name (.registry registry shared) }

def nameProvider (name : String) (provider : Provider) (state : State) : State :=
  { state with
    providers := state.providers.insert name provider
    loosened := state.loosened || state.providers.contains name }

/-- Names a singleton, which is a provider too. -/
def nameSingleton (name : String) (cell : CellId) (provider : Provider) (state : State) : State :=
  let state := state.nameProvider name provider
  { state with
    singletons := state.singletons.insert name (cell, provider)
    loosened := state.loosened || state.singletons.contains name }

def nameHandle (name : String) (handle : NamedHandle) (state : State) : State :=
  { state with
    handles := state.handles.insert name handle
    loosened := state.loosened || state.handles.contains name }

def eraseResolver (name : String) (state : State) : State :=
  { state with resolvers := state.resolvers.erase name, loosened := true }

def eraseHandle (name : String) (state : State) : State :=
  { state with handles := state.handles.erase name, loosened := true }

/-! ### Release -/

/-- Marks what the names of a script hold. -/
def mark (state : State) (marks : Marks) : Marks :=
  let marks := state.resolvers.foldl (fun marks pair =>
    match pair.2 with
    | .registry registry _ => registry.resolver.mark marks
    | .injector id => marks.injector id
    | .resolver resolver => resolver.mark marks) marks
  let marks := state.providers.foldl (fun marks pair => pair.2.mark marks) marks
  let marks := state.singletons.foldl (fun marks pair => pair.2.2.mark marks) marks
  state.handles.foldl (fun marks pair =>
    match pair.2.cell with
    | some cell => marks.lazy cell
    | none => marks) marks

/-- The state after everything is released that nothing holds any more, with a new journal.  A step
    that takes no name away leaves every injector held that was held before. -/
def tidy (state : State) : State :=
  let world := if state.loosened then state.world.collect state.mark else state.world
  { state with world := { world with journal := .empty }, loosened := false }

end State

/-! ## Answers -/

mutual

inductive Shown where
  | text (s : String)
  | integer (n : Int64)
  | flag (b : Bool)
  | object (label : String) (serial : Nat) (parts : List ShownPart)
  /-- An injector, by the first of its names. -/
  | injector (name : Option String)

inductive ShownPart where
  | made (value : Shown)
  | handle (key : String)
  /-- Whether a lazy handle has its instance. -/
  | lazy (resolved : Bool)
  | found (b : Bool)
  | failed (fault : Fault)

end

mutual

def State.showInstance (state : State) : Instance → Shown
  | .text s => .text s
  | .integer n => .integer n
  | .flag b => .flag b
  | .object _ label serial parts => .object label serial (state.showParts parts)
  | .injector id => .injector (state.injectorName? id)

def State.showPart (state : State) : Part → ShownPart
  | .made value => .made (state.showInstance value)
  | .handle handle => .handle handle.key.render
  | .lazy _ cell => .lazy (state.world.lazy? cell).isSome
  | .found b => .found b
  | .failed fault => .failed fault

def State.showParts (state : State) : List Part → List ShownPart
  | [] => []
  | part :: parts => state.showPart part :: state.showParts parts

end

inductive Reply where
  | done
  | nothing
  | truth (b : Bool)
  | value (shown : Shown)
  | filled (values : List Shown) (fault : Option Fault)
  /-- The instance of a singleton, if it is made. -/
  | singleton (cached : Option Shown)
  /-- Whether a lazy handle has its instance, and the text of the handle. -/
  | handle (resolved : Option Bool) (text : String)
  | registry (keys : List Key) (hasParent : Bool) (present : List Bool) (text : String)
  /-- Whether there is a parent and what its first name is, and the text of the injector. -/
  | injector (parent : Option (Option String)) (text : String)
  | refused (refusal : Refusal)

/-- What is known after a step: its answer, and what was written down meanwhile. -/
structure Report where
  reply : Reply
  journal : Journal

end Injection.Session
