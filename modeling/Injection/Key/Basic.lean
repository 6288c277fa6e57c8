/-
  Keys: what identifies a dependency.

  A key is a type, perhaps with a qualifier whose members have the order of their
  names.  Keys are equal when their types and their qualifiers are; a qualified
  key never equals an unqualified one.  Equal keys may have different texts,
  since a text shows a qualifier as it was written.
-/
import Injection.Key.Qualifier

namespace Injection

/-- A type, and perhaps a qualifier, whose members stand in the order of their names. -/
structure Key where
  type : TypeExpr
  qualifier : Option Qualifier
  ordered : qualifier.all Qualifier.ordered = true

namespace Key

def unqualified (type : TypeExpr) : Key := ⟨type, none, rfl⟩

/-- The key of a plain type without a qualifier. -/
def plain (type : String) : Key := unqualified (.plain type)

/-- The key of a plain type with the standard qualifier. -/
def named (type name : String) : Key :=
  ⟨.plain type, some (.named name), Qualifier.ordered_named name⟩

def injectorType : String := "saber_di::injector::Injector"

/-- The key under which every injector provides itself. -/
def injector : Key := plain injectorType

/-- Keys are equal when their types and their qualifiers are. -/
instance : BEq Key where
  beq a b := a.type == b.type && a.qualifier == b.qualifier

/-- The feed of a key: its type, then its qualifier. -/
def feed (key : Key) : Feed :=
  match key.qualifier with
  | none => key.type.feed ++ [.tag 0]
  | some qualifier => key.type.feed ++ .tag 1 :: qualifier.feed

instance : Hashable Key := ⟨fun key => key.feed.digest⟩

/-- The text of a key: its qualifier, if any, before its type. -/
def render (key : Key) : String :=
  match key.qualifier with
  | none => key.type.render
  | some qualifier => qualifier.render ++ " " ++ key.type.render

instance : ToString Key := ⟨render⟩

/-- The text of a key inside a description of a larger value. -/
def describe (key : Key) : String := "Key(" ++ key.render ++ ")"

/-- For the key of a `Provider<T>` or `Lazy<T>`, the key of `T` with the same qualifier. -/
def deferredTarget? (key : Key) : Option Key :=
  key.type.deferredTarget?.map fun type => { key with type }

/-- The key of what has to be provided when a key is depended upon. -/
def required (key : Key) : Key := key.deferredTarget?.getD key

end Key

end Injection
