/-
  From descriptions to what they describe.

  Every description gives a provider of its own: with a counter of its calls if
  it is a factory, with a cell of its own if it is a singleton.
-/
import Injection.Container.Configuration
import Injection.Session.Step

namespace Injection.Session

/-! ## Recipes -/

/-- Gets what a factory needs, as a part of its object. -/
def Need.recipe : Need → Recipe Part
  | .any key => do return .made (← Recipe.request key)
  | .typed key expected => do return .made (← Recipe.requestTyped key expected)
  | .tried key => .ask key fun answer =>
    match answer with
    | .ok value => .done (.made value)
    | .error fault => .done (.failed fault)
  | .found key => .search key fun answer => .ofExcept (answer.map Part.found)
  | .handle key expected => do return .handle (← Recipe.handle key expected)
  | .lazyHandle key expected => do
    let handle ← Recipe.handle key expected
    .newLazy fun cell => .done (.lazy handle cell)

/-- What a factory does in a call. -/
def Body.recipe (body : Body) (call : Nat) : Recipe Instance :=
  .note ("make " ++ body.label ++ " #" ++ toString call) <|
    if call ≤ body.abortTimes then .abort body.label
    else
      match body.fault, decide (call ≤ body.failTimes) with
      | some fault, true => .fail fault
      | _, _ => do
        let parts ← body.needs.mapM Need.recipe
        match body.value with
        | some template => template.realise (.serial .done)
        | none => .serial fun serial => .done (.object body.type body.label serial parts)

/-! ## Making providers -/

/-- Why a step has no result. -/
inductive Refusal where
  | stop (stop : Stop)
  /-- A name that the step needs stands for nothing, or for something of another kind. -/
  | noSuch
  /-- The registry is shared, and cannot change any more. -/
  | frozen

/-- Computations in the world that can be refused, given the saved providers. -/
abbrev Making := ReaderT (NameMap Provider) (ExceptT Refusal (StateM World))

namespace Making

def run {α : Type} (work : Run α) : Making α := fun _ => do
  match ← ExceptT.lift (m := StateM World) work.run with
  | .ok value => return value
  | .error stop => throw (.stop stop)

def arg {α : Type} (a : Arg α) : Making α := run (Run.ofExcept a)

def factory (body : Body) : Making Provider := do
  return .factory (← run World.newCounter) body.recipe

/-- The provider that a description gives. -/
def provider : Blueprint → Making Provider
  | .value template => do return .ready (← run (template.realise World.nextSerial))
  | .factory body => factory body
  | .singleton body => do
    let delegate ← factory body
    return .singleton (← run World.newSingleton) delegate
  | .saved name => do
    match (← read).get? name with
    | some provider => return provider
    | none => throw .noSuch

/-- The entry of a component that a description gives.  An instance is made when the entry is
    carried out. -/
def entry : EntryPlan → Making Entry
  | .provide key (.value template) => return .value key template
  | .provide key blueprint => do return .provider key (← provider blueprint)
  | .resolve key => return .resolve key

/-- The entries of a component.  The first one that cannot be made decides. -/
def entries (component : List (Arg EntryPlan)) : Making (List Entry) :=
  component.mapM fun plan => do entry (← arg plan)

/-! ## Making interceptors -/

/-- The resolver interceptor that a description gives. -/
def resolverInterceptor (depth : Nat) : ResolverPlan → Making ResolverInterceptor
  | .override component => do
    let entries ← entries component
    let registry ← run ((Registry.empty none).configure depth entries)
    return .overriding registry.bindings
  | .record name tag => return ⟨name, .record tag⟩
  | .keep name => return ⟨name, .keep⟩
  | .refuse name => return ⟨name, .refuse⟩

/-- The provider interceptor that a description gives.  Of two substitutes for a key the first one
    counts. -/
def providerInterceptor : LookupPlan → Making ProviderInterceptor
  | .substitute providers => do
    let providers ← providers.foldlM (fun (bindings : Bindings) plan => do
      let (key, blueprint) ← arg plan
      return bindings.insertNew key (← provider blueprint)) .empty
    return .substituting providers
  | .record name tag => return ⟨name, .record tag⟩
  | .silence name only => return ⟨name, .silence only⟩
  | .fail name key fault => return ⟨name, .fail key fault⟩
  | .redirect name key target => return ⟨name, .redirect key target⟩
  | .bypass name key => return ⟨name, .bypass key⟩
  | .replace name key blueprint => do return ⟨name, .replace key (← provider blueprint)⟩

end Making

end Injection.Session
