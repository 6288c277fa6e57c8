/-
  Resolvers: what answers requests for keys.

  A registry answers from its own bindings, and asks its parent for the rest.
  Resolver interceptors wrap a resolver into another one; an injector puts a
  chain of provider interceptors before the resolver it wraps.

  * `Resolver.find` searches for a provider: a miss is an answer;
  * `Resolver.getProvider` demands a provider: a miss is a fault.
-/
import Injection.Container.Interceptor

namespace Injection

/-- Something that answers requests for keys. -/
inductive Resolver where
  /-- A registry, and the resolver that it asks for keys it does not hold. -/
  | registry (bindings : Bindings) (parent : Option Resolver)
  /-- Answers some keys itself, and leaves the others to the inner resolver. -/
  | overriding (overrides : Bindings) (inner : Resolver)
  | recording (tag : String) (inner : Resolver)
  /-- An injector, by its number, its provider interceptors and the resolver behind them. -/
  | injector (id : InjectorId) (interceptors : List ProviderInterceptor) (inner : Resolver)

namespace Resolver

def find : Resolver → Key → Lookup (Option Provider)
  | .registry bindings none, key => pure (bindings.get? key)
  | .registry bindings (some parent), key =>
    match bindings.get? key with
    | some provider => pure (some provider)
    | none => parent.find key
  | .overriding overrides inner, key =>
    match overrides.get? key with
    | some provider => pure (some provider)
    | none => inner.find key
  | .recording tag inner, key => do
    Lookup.note ("find " ++ tag ++ " " ++ key.render)
    inner.find key
  | .injector _ [] inner, key => inner.find key
  | .injector _ (first :: others) inner, key =>
    Lookup.settle key (Lookup.chain inner.find (first :: others) key)

def getProvider : Resolver → Key → Lookup Provider
  | .injector _ interceptors inner, key => Lookup.chain inner.find interceptors key
  | resolver, key => Lookup.required resolver.find key

end Resolver

/-! ## Resolver interceptors -/

/-- What a resolver interceptor makes of a resolver. -/
inductive Wrapping where
  | override (overrides : Bindings)
  | record (tag : String)
  | keep
  | refuse

/-- A wrapping, and the name that is shown when it is at fault. -/
structure ResolverInterceptor where
  name : String
  wrapping : Wrapping

namespace ResolverInterceptor

/-- The interceptor that answers some keys from bindings of its own. -/
def overriding (overrides : Bindings) : ResolverInterceptor :=
  ⟨"saber_di::interceptor::OverrideInterceptor", .override overrides⟩

def wrap (interceptor : ResolverInterceptor) (inner : Resolver) : Lookup (Option Resolver) :=
  match interceptor.wrapping with
  | .override overrides => pure (some (.overriding overrides inner))
  | .record tag => do
    Lookup.note ("wrap " ++ tag)
    return some (.recording tag inner)
  | .keep => pure (some inner)
  | .refuse => pure none

/-- Applies a list of interceptors, the last one first, so that requests meet the first one first.
    An interceptor that makes nothing of a resolver is at fault. -/
def wrapAll (inner : Resolver) : List ResolverInterceptor → Lookup Resolver
  | [] => pure inner
  | interceptor :: rest => do
    match ← interceptor.wrap (← wrapAll inner rest) with
    | some resolver => return resolver
    | none => throw (.noResult interceptor.name)

end ResolverInterceptor

/-! ## Registries -/

/-- A registry under construction: its bindings, and the resolver it asks for other keys. -/
structure Registry where
  bindings : Bindings
  parent : Option Resolver

namespace Registry

def empty (parent : Option Resolver) : Registry := ⟨.empty, parent⟩

def resolver (registry : Registry) : Resolver := .registry registry.bindings registry.parent

/-- Reports a registration that hides a provider of the parent. -/
def noteShadowing (registry : Registry) (key : Key) : Lookup Unit := do
  match registry.parent with
  | none => pure ()
  | some parent =>
    match ← Lookup.attempt (parent.find key) with
    | .ok (some _) => Lookup.report (.parentShadowed key)
    | _ => pure ()

/-- Registers a provider.  Only the registry's own bindings can stand in the way. -/
def register (registry : Registry) (key : Key) (provider : Provider) : Lookup Registry := do
  registry.noteShadowing key
  match registry.bindings.insert key provider with
  | (bindings, none) => return { registry with bindings }
  | (_, some (key, _)) => throw (.alreadyRegistered key)

def describe (registry : Registry) : String :=
  "ProviderRegistry \x7b keys: [" ++ ", ".intercalate (registry.bindings.keys.map Key.describe)
    ++ "], has_parent: " ++ (if registry.parent.isSome then "true" else "false") ++ " \x7d"

end Registry

end Injection
