/-
  Filling in the members of values that exist already.

  Each member is asked for in order; the first one that fails ends the work,
  and what was filled in before stays.  A member can be a value with members of
  its own, filled in by the injector that the resolver provides.
-/
import Injection.Container.Resolution

namespace Injection

inductive Member where
  | any (key : Key)
  | typed (key : Key) (expected : String)
  /-- A value of a given type with members of its own. -/
  | nested (target : String) (members : List Member)

/-- What was filled in, and why that ended early if it did. -/
structure Filled where
  values : List Instance
  fault : Option Fault

namespace Filled

def ofOutcome : Except Fault Instance → Filled
  | .ok value => ⟨[value], none⟩
  | .error fault => ⟨[], some fault⟩

/-- The outcome with its fault blamed on a target. -/
def blame (target : String) (filled : Filled) : Filled :=
  ⟨filled.values, filled.fault.map (.membersNotFilled target)⟩

end Filled

namespace Member

mutual

def fill (depth : Nat) (resolver : Resolver) : Member → Run Filled
  | .any key => do return .ofOutcome (← Run.attempt (resolver.getInstance depth key))
  | .typed key expected => do
    return .ofOutcome (← Run.attempt (resolver.getTyped depth key expected))
  | .nested target members => do
    match ← Run.attempt (resolver.getInjector depth) with
    | .error fault => return ⟨[], some fault⟩
    | .ok id =>
      match (← get).injector? id with
      | none => return ⟨[], some (.notProvided .injector)⟩
      | some injector => return (← fillAll depth (injector.resolver id) members).blame target

/-- Fills in members in order, up to the first that fails. -/
def fillAll (depth : Nat) (resolver : Resolver) : List Member → Run Filled
  | [] => pure ⟨[], none⟩
  | member :: members => do
    let first ← member.fill depth resolver
    match first.fault with
    | some fault => return ⟨first.values, some fault⟩
    | none =>
      let others ← fillAll depth resolver members
      return ⟨first.values ++ others.values, others.fault⟩

end

/-- Fills in the members of a value of a given type. -/
def inject (depth : Nat) (resolver : Resolver) (target : String) (members : List Member) :
    Run Filled := do
  return (← fillAll depth resolver members).blame target

end Member

end Injection
