/-
  Making qualifiers and reading their members.

  A qualifier made with `Qualifier.ofAssignments` has only members that its
  schema declares.  Reading a member gives what was assigned, or else the
  declared default.
-/
import Injection.Key.Literal

namespace Injection

/-- Why a member of a qualifier cannot be assigned or read. -/
inductive MemberFault where
  /-- The member is declared, but has neither a value nor a default. -/
  | missing (type member : String)
  /-- The qualifier's type declares no such member. -/
  | undeclared (type member : String)

def MemberFault.message : MemberFault → String
  | .missing type member =>
    "annotation " ++ type ++ " is missing a value for member '" ++ member ++ "'"
  | .undeclared type member =>
    "annotation " ++ type ++ " has no member '" ++ member ++ "'"

/-- The schema with the given declarations, a later one of a name replacing an earlier one. -/
def Schema.ofDeclarations (type : TypeExpr) (declarations : List (String × Option Literal)) :
    Schema :=
  ⟨type, NameMap.ofList declarations⟩

def Schema.declares (schema : Schema) (member : String) : Bool :=
  NameMap.contains schema.members member

/-- The default of a member, if it is declared with one. -/
def Schema.default? (schema : Schema) (member : String) : Option Literal :=
  (NameMap.get? schema.members member).join

/-- The schema of the standard qualifier, with one member to be assigned. -/
def Schema.named : Schema := .ofDeclarations (.plain "saber_di::Named") [("value", none)]

namespace Qualifier

/-- The qualifier of a schema that gives no member. -/
def marker (schema : Schema) : Qualifier := ⟨schema, []⟩

/-- The standard qualifier with a name. -/
def named (name : String) : Qualifier := ⟨.named, [("value", .scalar (.text name))]⟩

theorem ordered_named (name : String) : (named name).ordered = true := rfl

/-- A qualifier in the making: the members given so far, and the first of their names that the
    schema does not declare. -/
structure Draft where
  schema : Schema
  explicit : NameMap Literal
  unknown : Option String

namespace Draft

def empty (schema : Schema) : Draft := ⟨schema, .empty, none⟩

/-- Gives a member a value, in place of the one it had.  A name that is not declared is noted, but
    does not stop the making. -/
def assign (draft : Draft) (member : String) (value : Literal) : Draft :=
  let ⟨schema, explicit, unknown⟩ := draft
  ⟨schema, NameMap.insert member value explicit,
    if !schema.declares member && unknown.isNone then some member else unknown⟩

/-- The finished qualifier, unless a name was noted. -/
def finish (draft : Draft) : Except MemberFault Qualifier :=
  match draft.unknown with
  | some member => .error (.undeclared draft.schema.type.render member)
  | none => .ok ⟨draft.schema, draft.explicit⟩

end Draft

/-- The qualifier with the given members, a later assignment of a name replacing an earlier one;
    refused for the first name that the schema does not declare. -/
def ofAssignments (schema : Schema) (assignments : List (String × Literal)) :
    Except MemberFault Qualifier :=
  (assignments.foldl (fun draft pair => draft.assign pair.1 pair.2) (Draft.empty schema)).finish

/-- Reads a member: what was assigned, or else the default. -/
def get (qualifier : Qualifier) (member : String) : Except MemberFault Literal :=
  match NameMap.get? qualifier.explicit member with
  | some given => .ok given
  | none =>
    match NameMap.get? qualifier.schema.members member with
    | some (some default) => .ok default
    | some none => .error (.missing qualifier.schema.type.render member)
    | none => .error (.undeclared qualifier.schema.type.render member)

end Qualifier

end Injection
