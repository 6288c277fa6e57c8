/-
  Types as the declarations of a program name them.

  Two descriptions of a type stand for the same type exactly when they have
  the same shape, so types are compared as plain values (`same_iff`).

  * `TypeExpr.render` is the text of a type;
  * `TypeExpr.isConcrete` holds of the types a factory can make;
  * `TypeExpr.deferredTarget?` sees through the wrappers `Provider<T>` and
    `Lazy<T>`, which stand for a value of `T` that is asked for later.
-/
import Injection.Key.Feed

namespace Injection

inductive TypeExpr where
  /-- A type without arguments, by its qualified name. -/
  | plain (name : String)
  /-- A generic type with its arguments, perhaps a member of another type. -/
  | applied (owner : Option TypeExpr) (raw : TypeExpr) (args : List TypeExpr)
  | array (element : TypeExpr)
  /-- `? extends A & B super C`; a wildcard without bounds has two empty lists. -/
  | wildcard (upper lower : List TypeExpr)
  | var (name : String)

namespace TypeExpr

/-! ## Deferred types -/

/-- The wrapper whose value gives a new instance each time it is asked. -/
def providerName : String := "saber_di::Provider"

/-- The wrapper whose value asks for an instance once and keeps it. -/
def lazyName : String := "saber_di::Lazy"

def providerOf (type : TypeExpr) : TypeExpr := .applied none (.plain providerName) [type]

def lazyOf (type : TypeExpr) : TypeExpr := .applied none (.plain lazyName) [type]

/-- The `T` of `Provider<T>` and `Lazy<T>`. -/
def deferredTarget? : TypeExpr → Option TypeExpr
  | .applied none (.plain name) [type] =>
    if name = providerName || name = lazyName then some type else none
  | _ => none

/-! ## Shape -/

/-- The type without its arguments. -/
def erased : TypeExpr → TypeExpr
  | .applied _ raw _ => raw.erased
  | type => type

mutual

/-- Whether a type mentions no wildcard and no type variable. -/
def isConcrete : TypeExpr → Bool
  | .plain _ => true
  | .applied none raw args => raw.isConcrete && allConcrete args
  | .applied (some owner) raw args => owner.isConcrete && raw.isConcrete && allConcrete args
  | .array element => element.isConcrete
  | .wildcard _ _ => false
  | .var _ => false

def allConcrete : List TypeExpr → Bool
  | [] => true
  | type :: types => type.isConcrete && allConcrete types

end

/-! ## Text -/

mutual

def render : TypeExpr → String
  | .plain name => name
  | .var name => name
  | .applied none raw args => raw.render ++ "<" ++ ", ".intercalate (renderAll args) ++ ">"
  | .applied (some owner) raw args =>
    owner.render ++ "." ++ raw.render ++ "<" ++ ", ".intercalate (renderAll args) ++ ">"
  | .array element => element.render ++ "[]"
  | .wildcard upper lower => "?" ++ bounds " extends " (renderAll upper)
      ++ bounds " super " (renderAll lower)
where
  /-- Bounds of a wildcard after the word that introduces them, if there are any. -/
  bounds (word : String) : List String → String
    | [] => ""
    | texts => word ++ " & ".intercalate texts

def renderAll : List TypeExpr → List String
  | [] => []
  | type :: types => type.render :: renderAll types

end

instance : ToString TypeExpr := ⟨render⟩

/-! ## Feed -/

mutual

/-- The feed of a type: its form, then its parts. -/
def feed : TypeExpr → Feed
  | .plain name => [.tag 0, .text name]
  | .applied none raw args => .tag 1 :: .tag 0 :: (raw.feed ++ .length args.length :: feedAll args)
  | .applied (some owner) raw args =>
    .tag 1 :: .tag 1 :: (owner.feed ++ raw.feed ++ .length args.length :: feedAll args)
  | .array element => .tag 2 :: element.feed
  | .wildcard upper lower =>
    .tag 3 :: .length upper.length :: (feedAll upper ++ .length lower.length :: feedAll lower)
  | .var name => [.tag 4, .text name]

def feedAll : List TypeExpr → Feed
  | [] => []
  | type :: types => type.feed ++ feedAll types

end

/-! ## Equality -/

mutual

/-- Whether two types have the same shape. -/
def same : TypeExpr → TypeExpr → Bool
  | .plain name, .plain name' => name = name'
  | .applied none raw args, .applied none raw' args' => same raw raw' && sameAll args args'
  | .applied (some owner) raw args, .applied (some owner') raw' args' =>
    same owner owner' && same raw raw' && sameAll args args'
  | .array element, .array element' => same element element'
  | .wildcard upper lower, .wildcard upper' lower' => sameAll upper upper' && sameAll lower lower'
  | .var name, .var name' => name = name'
  | _, _ => false

def sameAll : List TypeExpr → List TypeExpr → Bool
  | [], [] => true
  | type :: types, type' :: types' => same type type' && sameAll types types'
  | _, _ => false

end

mutual

/-- Types of the same shape are the same type. -/
theorem same_iff : ∀ s t : TypeExpr, same s t = true ↔ s = t
  | .plain _, t => by cases t <;> simp [same]
  | .applied none raw args, t => by
    cases t with
    | applied owner' raw' args' =>
      cases owner' <;> simp [same, same_iff raw raw', sameAll_iff args args']
    | _ => simp [same]
  | .applied (some owner) raw args, t => by
    cases t with
    | applied owner' raw' args' =>
      cases owner' with
      | none => simp [same]
      | some owner' =>
        simp [same, same_iff owner owner', same_iff raw raw', sameAll_iff args args', and_assoc]
    | _ => simp [same]
  | .array element, t => by
    cases t with
    | array element' => simp [same, same_iff element element']
    | _ => simp [same]
  | .wildcard upper lower, t => by
    cases t with
    | wildcard upper' lower' => simp [same, sameAll_iff upper upper', sameAll_iff lower lower']
    | _ => simp [same]
  | .var _, t => by cases t <;> simp [same]

theorem sameAll_iff : ∀ ss ts : List TypeExpr, sameAll ss ts = true ↔ ss = ts
  | [], ts => by cases ts <;> simp [sameAll]
  | s :: ss, ts => by
    cases ts with
    | nil => simp [sameAll]
    | cons t ts => simp [sameAll, same_iff s t, sameAll_iff ss ts]

end

instance : DecidableEq TypeExpr := fun s t => decidable_of_iff _ (same_iff s t)

end TypeExpr

end Injection
