/-
  Provider interceptors: rules that see each lookup of a provider.

  The interceptors of an injector form a chain.  Each one answers a lookup or
  hands it on to the rest of the chain, at whose end stands the injector's
  resolver; the first of the list sees a lookup first.  An interceptor that
  answers with nothing is at fault: nothing is never taken for a miss.
-/
import Injection.Container.Journal
import Injection.Container.Provider

namespace Injection

/-- What an interceptor does with a lookup.  Where a rule does not apply, it hands the lookup on. -/
inductive LookupRule where
  /-- Leaves a note, and hands the lookup on. -/
  | record (tag : String)
  /-- Answers the keys for which it holds a provider. -/
  | substitute (providers : Bindings)
  /-- Answers every key, or one, with nothing. -/
  | silence (only : Option Key)
  /-- Fails for a key. -/
  | fail (key : Key) (fault : Fault)
  /-- Hands on another key in place of a key. -/
  | redirect (key target : Key)
  /-- Asks the resolver for a key itself, past the rest of the chain. -/
  | bypass (key : Key)
  /-- Hands a key on, but answers with a provider of its own whatever comes of it. -/
  | replace (key : Key) (provider : Provider)

/-- A rule, and the name that is shown when it is at fault. -/
structure ProviderInterceptor where
  name : String
  rule : LookupRule

/-- The interceptor that answers some keys with providers of its own. -/
def ProviderInterceptor.substituting (providers : Bindings) : ProviderInterceptor :=
  ⟨"saber_di::interceptor::KeyOverrideInterceptor", .substitute providers⟩

/-- What a rule answers, given the rest of the chain and the search of the resolver at its end. -/
def LookupRule.answer (rule : LookupRule) (proceed : Key → Lookup Provider)
    (search : Key → Lookup (Option Provider)) (key : Key) : Lookup (Option Provider) :=
  match rule with
  | .record tag => do
    Lookup.note ("lookup " ++ tag ++ " " ++ key.render)
    some <$> proceed key
  | .substitute providers =>
    match providers.get? key with
    | some provider => pure (some provider)
    | none => some <$> proceed key
  | .silence none => pure none
  | .silence (some only) => if key == only then pure none else some <$> proceed key
  | .fail only fault => if key == only then throw fault else some <$> proceed key
  | .redirect only target => some <$> proceed (if key == only then target else key)
  | .bypass only => if key == only then search key else some <$> proceed key
  | .replace only provider =>
    if key == only then do
      let _ ← Lookup.attempt (proceed key)
      return some provider
    else some <$> proceed key

/-- A search that has to find something. -/
def Lookup.required (search : Key → Lookup (Option Provider)) (key : Key) : Lookup Provider := do
  match ← search key with
  | some provider => return provider
  | none => throw (.notProvided key)

/-- A lookup through a chain of interceptors, with a resolver's search at its end. -/
def Lookup.chain (search : Key → Lookup (Option Provider)) :
    List ProviderInterceptor → Key → Lookup Provider
  | [], key => required search key
  | interceptor :: rest, key => do
    match ← interceptor.rule.answer (chain search rest) search key with
    | some provider => return provider
    | none => throw (.noResult interceptor.name)

/-- The outcome of a chain as that of a search: a fault that the key itself is not provided is a
    miss; any other fault is reported and stands. -/
def Lookup.settle (key : Key) (lookup : Lookup Provider) : Lookup (Option Provider) := do
  match ← attempt lookup with
  | .ok provider => return some provider
  | .error fault =>
    match fault with
    | .notProvided missing =>
      if missing == key then return none
    | _ => pure ()
    report (.lookupFailed key fault)
    throw fault

end Injection
