/-
  Scripts that exercise a container: their steps, as written.

  A step names what it works on.  It describes the providers and interceptors
  that it needs, which come into being when the step is carried out.  An
  argument that could not be built is the fault that says why; of several the
  step meets the first one.
-/
import Injection.Container.Instance
import Injection.Container.Members
import Injection.Container.Recipe

namespace Injection.Session

/-- An argument, or why it could not be built. -/
abbrev Arg (α : Type) := Except Fault α

/-! ## Providers as described -/

/-- What a factory needs, and what it does with it. -/
inductive Need where
  | any (key : Key)
  | typed (key : Key) (expected : String)
  /-- A failure of the request becomes a part of the object. -/
  | tried (key : Key)
  /-- Only whether the key is provided. -/
  | found (key : Key)
  | handle (key : Key) (expected : String)
  | lazyHandle (key : Key) (expected : String)

/-- A factory: it leaves a note of each call, breaks off or fails the first times if told so, gets
    what it needs in order, and then makes its value, or an object of what it got. -/
structure Body where
  label : String
  type : String
  needs : List Need
  abortTimes : Nat
  failTimes : Nat
  fault : Option Fault
  value : Option Template

inductive Blueprint where
  | value (template : Template)
  | factory (body : Body)
  | singleton (body : Body)
  /-- The provider saved under a name. -/
  | saved (name : String)

inductive EntryPlan where
  | provide (key : Key) (blueprint : Blueprint)
  | resolve (key : Key)

/-! ## Interceptors as described -/

inductive ResolverPlan where
  | override (component : List (Arg EntryPlan))
  | record (name tag : String)
  | keep (name : String)
  | refuse (name : String)

inductive LookupPlan where
  | substitute (providers : List (Arg (Key × Blueprint)))
  | record (name tag : String)
  | silence (name : String) (only : Option Key)
  | fail (name : String) (key : Key) (fault : Fault)
  | redirect (name : String) (key target : Key)
  | bypass (name : String) (key : Key)
  | replace (name : String) (key : Key) (blueprint : Blueprint)

/-! ## Steps -/

/-- Where a new handle gets its injector from. -/
inductive HandleSource where
  /-- The injector of this name. -/
  | injector (name : String)
  /-- The injector that the resolver of this name provides. -/
  | resolver (name : String)

inductive Step where
  | registry (name : String) (parent : Option String)
  | register (on : String) (key : Arg Key) (blueprint : Arg Blueprint)
  | injector (name : String) (component : List (Arg EntryPlan))
      (resolverInterceptors : List (Arg ResolverPlan))
      (providerInterceptors : List (Arg LookupPlan))
  | child (name : String) (component : List (Arg EntryPlan)) (parent : String)
  | intercept (name on : String) (plan : Arg ResolverPlan)
  | clone (on name : String)
  | drop (name : String)
  | get (on : String) (key : Arg Key) (expected : Option String)
  | find (on : String) (key : Arg Key)
  | getProvider (on : String) (key : Arg Key) (name : Option String)
  | injectMembers (on target : String) (members : Arg (List Member))
  | saveProvider (name : String) (blueprint : Arg Blueprint)
  | saveSingleton (name : String) (blueprint : Arg Blueprint)
  | providerGet (name on : String)
  | singletonState (name : String)
  | handle (name : String) (key : Arg Key) (expected : String) (isLazy : Bool)
      (source : HandleSource)
  | handleClone (source name : String)
  | handleGet (name : String)
  | handleState (name : String)
  | follow (on : String) (key : Arg Key) (expected : String) (part : Nat)
  | registryState (on : String) (keys : Arg (List Key))
  | injectorState (on : String)
  | sameInjector (a b : String)

end Injection.Session
