/-
  Why a request for an instance fails.
-/
import Injection.Key.Basic

namespace Injection

/-- The causes of failure at the time instances are made. -/
inductive Fault where
  /-- Neither the registry nor anything behind it provides the key. -/
  | notProvided (key : Key)
  /-- The registry already holds a provider for the key. -/
  | alreadyRegistered (key : Key)
  | member (fault : MemberFault)
  /-- An interceptor gave neither a resolver nor a provider. -/
  | noResult (interceptor : String)
  /-- The instance is not of the type asked for. -/
  | wrongType (key : Key) (expected : String)
  /-- A deferred handle outlived its injector. -/
  | injectorGone (key : Key)
  /-- A singleton was asked for while it was being made. -/
  | reentrantSingleton
  /-- The members of a value could not all be filled in. -/
  | membersNotFilled (target : String) (cause : Fault)

def Fault.message : Fault → String
  | .notProvided key => "no provider found for " ++ key.render
  | .alreadyRegistered key => "provider for " ++ key.render ++ " is already registered"
  | .member fault => fault.message
  | .noResult interceptor => "interceptor " ++ interceptor ++ " returned no result"
  | .wrongType key expected => "instance for " ++ key.render ++ " is not a " ++ expected
  | .injectorGone key => "injector for deferred " ++ key.render ++ " has been dropped"
  | .reentrantSingleton => "singleton requested itself while under construction"
  | .membersNotFilled target cause =>
    "failed to inject members of " ++ target ++ ": " ++ cause.message

end Injection
