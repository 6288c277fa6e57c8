/-
  Configuring registries and making injectors.

  A component is a list of entries, carried out in order on a registry.  An
  injector comes from a component: it registers itself first, then the
  component configures the registry, then the resolver interceptors wrap it.
  From then on the registry does not change.
-/
import Injection.Container.Resolution

namespace Injection

/-- One thing that a component does to the registry it configures. -/
inductive Entry where
  /-- Registers an instance, which is made for the purpose. -/
  | value (key : Key) (template : Template)
  | provider (key : Key) (provider : Provider)
  /-- Makes an instance from what is registered so far, and drops it. -/
  | resolve (key : Key)

namespace Registry

def carryOut (depth : Nat) (registry : Registry) : Entry → Run Registry
  | .value key template => do
    let value ← template.realise World.nextSerial
    Run.lookup (registry.register key (.ready value))
  | .provider key provider => Run.lookup (registry.register key provider)
  | .resolve key => do
    let _ ← registry.resolver.getInstance depth key
    return registry

/-- Carries out the entries of a component in order. -/
def configure (depth : Nat) (registry : Registry) (component : List Entry) : Run Registry :=
  component.foldlM (carryOut depth) registry

end Registry

namespace Injector

/-- Configures the injector with the number `id`. -/
def configure (depth : Nat) (id : InjectorId) (registry : Registry) (parent : Option InjectorId)
    (resolverInterceptors : List ResolverInterceptor)
    (providerInterceptors : List ProviderInterceptor) (component : List Entry) :
    Run InjectorId := do
  let registry ← Run.lookup (registry.register .injector (.self id))
  let registry ← registry.configure depth component
  let inner ← Run.lookup (ResolverInterceptor.wrapAll registry.resolver resolverInterceptors)
  World.report (.injectorConfigured registry.bindings.size parent.isSome)
  World.setInjector id
    (.live ⟨registry, inner, parent, resolverInterceptors, providerInterceptors⟩)
  return id

/-- Makes an injector.  If that fails, its number stands for nothing. -/
def create (depth : Nat) (registry : Registry) (parent : Option InjectorId)
    (resolverInterceptors : List ResolverInterceptor)
    (providerInterceptors : List ProviderInterceptor) (component : List Entry) :
    Run InjectorId := do
  let id ← World.newInjector
  match ← Run.ending (configure depth id registry parent resolverInterceptors
    providerInterceptors component) with
  | .ok id => return id
  | .error stop =>
    World.setInjector id .gone
    throw stop

def createRoot (depth : Nat) (resolverInterceptors : List ResolverInterceptor)
    (providerInterceptors : List ProviderInterceptor) (component : List Entry) :
    Run InjectorId :=
  create depth (.empty none) none resolverInterceptors providerInterceptors component

/-- Makes a child of an injector.  Its registry asks the parent's wrapped registry, past the
    parent's provider interceptors; it has the parent's interceptors itself. -/
def createChild (depth : Nat) (parent : InjectorId) (injector : Injector)
    (component : List Entry) : Run InjectorId :=
  create depth (.empty (some injector.inner)) (some parent) injector.resolverInterceptors
    injector.providerInterceptors component

end Injector

end Injection
