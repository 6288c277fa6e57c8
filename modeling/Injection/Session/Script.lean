/-
  Carrying out scripts.

  The steps of a script are carried out in order.  A step that is refused
  changes no names, but what it did to the world before stays.  After a step
  that took a name away, what nothing holds any more is released.
-/
import Injection.Session.State

namespace Injection.Session

abbrev Act := ExceptT Refusal (StateM State)

namespace Act

variable {α : Type}

/-! ## Access to the container and to names -/

/-- The depth to which requests of a script may be nested. -/
def depth : Nat := 100000

/-- A computation that makes things. -/
def make (work : Making α) : Act α := do
  let outcome ← modifyGet fun state =>
    let (outcome, world) := (work state.providers).run.run state.world
    (outcome, { state with world })
  match outcome with
  | .ok value => return value
  | .error refusal => throw refusal

def ofRun (work : Run α) : Act α := make (Making.run work)

def arg (a : Arg α) : Act α := make (Making.arg a)

def lookup (map : State → NameMap α) (name : String) : Act α := do
  match (map (← get)).get? name with
  | some a => return a
  | none => throw .noSuch

def resolver (name : String) : Act Resolver := do
  match ← lookup State.resolvers name with
  | .registry registry _ => return registry.resolver
  | .resolver resolver => return resolver
  | .injector id =>
    match (← get).world.injector? id with
    | some injector => return injector.resolver id
    | none => throw .noSuch

def injector (name : String) : Act (InjectorId × Injector) := do
  match ← lookup State.resolvers name with
  | .injector id =>
    match (← get).world.injector? id with
    | some injector => return (id, injector)
    | none => throw .noSuch
  | _ => throw .noSuch

def setResolver (name : String) (named : Named) : Act Unit :=
  modify (State.nameResolver name named)

def setProvider (name : String) (provider : Provider) : Act Unit :=
  modify (State.nameProvider name provider)

def setHandle (name : String) (handle : NamedHandle) : Act Unit :=
  modify (State.nameHandle name handle)

/-- The resolver of a name, which is shared with something else from now on. -/
def share (name : String) : Act Resolver := do
  let resolver ← resolver name
  match ← lookup State.resolvers name with
  | .registry registry _ => modify (State.extendRegistry name registry true)
  | _ => pure ()
  return resolver

def display (value : Instance) : Act Reply := do return .value ((← get).showInstance value)

/-! ## Steps -/

def registry (name : String) (parent : Option String) : Act Reply := do
  let parent ← parent.mapM share
  setResolver name (.registry (.empty parent) false)
  return .done

/-- Registers a provider with a registry that is not shared.  The provider is made before the
    registry is looked up. -/
def register (on : String) (key : Arg Key) (blueprint : Arg Blueprint) : Act Reply := do
  let entry ← make (Making.entry (.provide (← arg key) (← arg blueprint)))
  match ← lookup State.resolvers on with
  | .registry registry false =>
    let registry ← ofRun (registry.carryOut depth entry)
    modify (State.extendRegistry on registry false)
    return .done
  | _ => throw .frozen

/-- Makes a resolver interceptor and reports that it was added. -/
def addResolverInterceptor (plan : Arg ResolverPlan) : Act ResolverInterceptor := do
  let interceptor ← make (Making.resolverInterceptor depth (← arg plan))
  ofRun (World.report (.resolverInterceptorAdded interceptor.name))
  return interceptor

/-- Makes a provider interceptor and reports that it was added. -/
def addProviderInterceptor (plan : Arg LookupPlan) : Act ProviderInterceptor := do
  let interceptor ← make (Making.providerInterceptor (← arg plan))
  ofRun (World.report (.providerInterceptorAdded interceptor.name))
  return interceptor

def createInjector (name : String) (component : List (Arg EntryPlan))
    (resolverInterceptors : List (Arg ResolverPlan))
    (providerInterceptors : List (Arg LookupPlan)) : Act Reply := do
  let entries ← make (Making.entries component)
  let resolverInterceptors ← resolverInterceptors.mapM addResolverInterceptor
  let providerInterceptors ← providerInterceptors.mapM addProviderInterceptor
  let id ← ofRun (Injector.createRoot depth resolverInterceptors providerInterceptors entries)
  setResolver name (.injector id)
  return .done

def createChild (name : String) (component : List (Arg EntryPlan)) (parent : String) :
    Act Reply := do
  let entries ← make (Making.entries component)
  let (parent, injector) ← injector parent
  let id ← ofRun (Injector.createChild depth parent injector entries)
  setResolver name (.injector id)
  return .done

/-- Applies a resolver interceptor to a resolver, and names the result.  The resolver is shared
    as soon as there is an interceptor, even one that gives no result. -/
def intercept (name on : String) (plan : Arg ResolverPlan) : Act Reply := do
  let interceptor ← make (Making.resolverInterceptor depth (← arg plan))
  let inner ← share on
  match ← ofRun (Run.lookup (interceptor.wrap inner)) with
  | some resolver =>
    setResolver name (.resolver resolver)
    return .done
  | none => return .nothing

/-- Gives an injector a second name. -/
def clone (on name : String) : Act Reply := do
  let (id, _) ← injector on
  setResolver name (.injector id)
  return .done

/-- Takes the name of a resolver away, or else that of a handle. -/
def drop (name : String) : Act Reply := do
  let state ← get
  if state.resolvers.contains name then
    set (state.eraseResolver name)
    return .truth true
  else
    set (state.eraseHandle name)
    return .truth (state.handles.contains name)

/-- Makes an instance, of a given type if there is one. -/
def makeInstance (on : String) (key : Arg Key) (expected : Option String) : Act Instance := do
  let resolver ← resolver on
  let key ← arg key
  match expected with
  | some expected => ofRun (resolver.getTyped depth key expected)
  | none => ofRun (resolver.getInstance depth key)

def find (on : String) (key : Arg Key) : Act Reply := do
  let resolver ← resolver on
  let provider ← ofRun (Run.lookup (resolver.find (← arg key)))
  return .truth provider.isSome

/-- Demands a provider, and saves it under a name if there is one. -/
def getProvider (on : String) (key : Arg Key) (name : Option String) : Act Reply := do
  let resolver ← resolver on
  let provider ← ofRun (Run.lookup (resolver.getProvider (← arg key)))
  if let some name := name then setProvider name provider
  return .done

def injectMembers (on target : String) (members : Arg (List Member)) : Act Reply := do
  let members ← arg members
  let (id, injector) ← injector on
  let filled ← ofRun (Member.inject depth (injector.resolver id) target members)
  let state ← MonadState.get
  return .filled (filled.values.map state.showInstance) filled.fault

def saveProvider (name : String) (blueprint : Arg Blueprint) : Act Reply := do
  setProvider name (← make (Making.provider (← arg blueprint)))
  return .done

/-- Saves a singleton around a provider. -/
def saveSingleton (name : String) (blueprint : Arg Blueprint) : Act Reply := do
  let delegate ← make (Making.provider (← arg blueprint))
  let cell ← ofRun World.newSingleton
  let provider := Provider.singleton cell delegate
  modify (State.nameSingleton name cell provider)
  return .done

def providerGet (name on : String) : Act Reply := do
  let provider ← lookup State.providers name
  let resolver ← resolver on
  display (← ofRun (resolver.getFrom depth provider))

def singletonState (name : String) : Act Reply := do
  let (cell, _) ← lookup State.singletons name
  let state ← get
  return .singleton ((state.world.singleton cell).value.map state.showInstance)

def handle (name : String) (key : Arg Key) (expected : String) (isLazy : Bool)
    (source : HandleSource) : Act Reply := do
  let key ← arg key
  let handle ← match source with
    | .injector on => do
      let (id, _) ← injector on
      pure (Handle.mk id key expected)
    | .resolver on => do
      let resolver ← resolver on
      ofRun (Handle.ofResolver depth resolver key expected)
  let cell ← if isLazy then some <$> ofRun World.newLazy else pure none
  setHandle name ⟨handle, cell⟩
  return .done

/-- Gives a plain handle a second name; a lazy handle has only one. -/
def handleClone (source name : String) : Act Reply := do
  let named ← lookup State.handles source
  match named.cell with
  | none =>
    setHandle name named
    return .done
  | some _ => return .nothing

def askHandle (handle : Handle) (cell : Option LazyId) : Run Instance :=
  match cell with
  | none => handle.get depth
  | some cell => handle.getLazy depth cell

def handleGet (name : String) : Act Reply := do
  let named ← lookup State.handles name
  display (← ofRun (askHandle named.handle named.cell))

/-- The state of a handle; the text of a plain one is followed by that of its key. -/
def handleState (name : String) : Act Reply := do
  let named ← lookup State.handles name
  match named.cell with
  | none => return .handle none (named.handle.describe ++ " " ++ named.handle.key.render)
  | some cell =>
    let resolved := ((← get).world.lazy? cell).isSome
    return .handle (some resolved) (named.handle.describeLazy resolved)

/-- Makes an object and asks the handle among its parts; an instance among its parts is shown. -/
def follow (on : String) (key : Arg Key) (expected : String) (part : Nat) : Act Reply := do
  match ← makeInstance on key (some expected) with
  | .object _ _ _ parts =>
    match parts[part]? with
    | some (.made value) => display value
    | some (.handle handle) => display (← ofRun (askHandle handle none))
    | some (.lazy handle cell) => display (← ofRun (askHandle handle (some cell)))
    | _ => return .nothing
  | _ => return .nothing

/-- The state of a registry, or of an injector's own. -/
def registryState (on : String) (keys : Arg (List Key)) : Act Reply := do
  let registry ← match ← lookup State.resolvers on with
    | .registry registry _ => pure registry
    | _ => do
      let (_, injector) ← injector on
      pure injector.registry
  let keys ← arg keys
  return .registry registry.bindings.keys registry.parent.isSome
    (keys.map registry.bindings.contains) registry.describe

def injectorState (on : String) : Act Reply := do
  let (_, injector) ← injector on
  let state ← get
  return .injector (injector.parent.map state.injectorName?) injector.describe

def sameInjector (a b : String) : Act Reply := do
  let (a, _) ← injector a
  let (b, _) ← injector b
  return .truth (a == b)

end Act

def Step.act : Step → Act Reply
  | .registry name parent => Act.registry name parent
  | .register on key blueprint => Act.register on key blueprint
  | .injector name component resolverInterceptors providerInterceptors =>
    Act.createInjector name component resolverInterceptors providerInterceptors
  | .child name component parent => Act.createChild name component parent
  | .intercept name on plan => Act.intercept name on plan
  | .clone on name => Act.clone on name
  | .drop name => Act.drop name
  | .get on key expected => do Act.display (← Act.makeInstance on key expected)
  | .find on key => Act.find on key
  | .getProvider on key name => Act.getProvider on key name
  | .injectMembers on target members => Act.injectMembers on target members
  | .saveProvider name blueprint => Act.saveProvider name blueprint
  | .saveSingleton name blueprint => Act.saveSingleton name blueprint
  | .providerGet name on => Act.providerGet name on
  | .singletonState name => Act.singletonState name
  | .handle name key expected isLazy source => Act.handle name key expected isLazy source
  | .handleClone source name => Act.handleClone source name
  | .handleGet name => Act.handleGet name
  | .handleState name => Act.handleState name
  | .follow on key expected part => Act.follow on key expected part
  | .registryState on keys => Act.registryState on keys
  | .injectorState on => Act.injectorState on
  | .sameInjector a b => Act.sameInjector a b

/-- Carries out a step and reports on it. -/
def perform (state : State) (step : Step) : Report × State :=
  let (outcome, state) := step.act.run.run state
  let reply := match outcome with
    | .ok reply => reply
    | .error refusal => .refused refusal
  (⟨reply, state.world.journal⟩, state.tidy)

def performAll : State → List Step → List Report
  | _, [] => []
  | state, step :: steps =>
    let (report, state) := perform state step
    report :: performAll state steps

end Injection.Session
