/-
  What declarations and assignments make of a qualifier.

  A name may be declared and assigned any number of times.  The last
  declaration of a name counts, and so does its last assignment; of the names
  that are not declared the first one assigned is reported.

  * `LastOf`: the pair of a name that no later pair replaces;
  * `Qualifier.Draft.Records`: what a draft holds after any assignments;
  * `Qualifier.Reads`, `Qualifier.Keeps`: what a finished qualifier answers and
    lists, told by the declarations and the assignments alone;
  * `Qualifier.ofAssignments_follows`: when a qualifier is refused and for which
    name, and what it keeps if it is not.
-/
import Injection.Key.Qualifier
import Injection.Proofs.ByteOrder
import Injection.Proofs.NameMap

namespace Injection

/-! ## Pairs that count -/

section

variable {α : Type} {pairs : List (String × α)} {name : String} {value : α}

/-- The last pair of a name gives it a value. -/
def LastOf (pairs : List (String × α)) (name : String) (value : α) : Prop :=
  ∃ before after, pairs = before ++ (name, value) :: after ∧ name ∉ after.map Prod.fst

theorem forall_bne_iff : (∀ pair ∈ pairs, (name != pair.1) = true) ↔ name ∉ pairs.map Prod.fst := by
  simp only [bne_iff_ne, List.mem_map, not_exists, not_and]
  exact forall₂_congr fun pair _ => ne_comm

namespace NameMap

theorem get?_ofList_eq_some_iff :
    get? (ofList pairs) name = some value ↔ LastOf pairs name value := by
  rw [get?_ofList, List.lookup_eq_some_iff]
  simp only [forall_bne_iff]
  constructor
  · rintro ⟨after, before, hsplit, hother⟩
    refine ⟨before.reverse, after.reverse, ?_, ?_⟩
    · simpa using congrArg List.reverse hsplit
    · rwa [List.map_reverse, List.mem_reverse]
  · rintro ⟨before, after, rfl, hother⟩
    refine ⟨after.reverse, before.reverse, by simp, ?_⟩
    rwa [List.map_reverse, List.mem_reverse]

theorem get?_ofList_eq_none_iff :
    get? (ofList pairs) name = none ↔ name ∉ pairs.map Prod.fst := by
  rw [get?_ofList, List.lookup_eq_none_iff, forall_bne_iff, List.map_reverse, List.mem_reverse]

end NameMap

end

/-- A schema declares the names of its declarations. -/
theorem Schema.declares_ofDeclarations_iff {type : TypeExpr}
    {declarations : List (String × Option Literal)} {name : String} :
    (Schema.ofDeclarations type declarations).declares name = true ↔
      name ∈ declarations.map Prod.fst := by
  rw [declares, ofDeclarations, NameMap.contains, Option.isSome_iff_ne_none, Ne,
    NameMap.get?_ofList_eq_none_iff, not_not]

namespace Qualifier

/-! ## Drafts -/

/-- A draft to which members were assigned.  It holds the last values, and the first name that is
    not declared. -/
structure Draft.Records (draft : Draft) (schema : Schema) (assignments : List (String × Literal)) :
    Prop where
  schema_eq : draft.schema = schema
  explicit_eq : draft.explicit = NameMap.ofList assignments
  unknown_eq : draft.unknown =
    (assignments.find? fun pair => !schema.declares pair.1).map Prod.fst

namespace Draft.Records

variable {draft : Draft} {schema : Schema} {done : List (String × Literal)}

theorem empty (schema : Schema) : (Draft.empty schema).Records schema [] := ⟨rfl, rfl, rfl⟩

theorem assign (h : draft.Records schema done) (name : String) (value : Literal) :
    (draft.assign name value).Records schema (done ++ [(name, value)]) := by
  obtain ⟨_, _, unknown⟩ := draft
  obtain ⟨rfl, rfl, hunknown⟩ := h
  dsimp only at hunknown
  refine ⟨rfl, ?_, ?_⟩
  · simp [Draft.assign, NameMap.ofList, NameMap.overlay]
  · simp only [Draft.assign, List.find?_append, hunknown]
    -- a name that was noted before stays, so the new one is looked at only if there is none
    cases hfind : done.find? fun pair => !Schema.declares _ pair.1 with
    | some pair => simp
    | none => cases hname : Schema.declares _ name <;> simp [hname]

theorem foldl (h : draft.Records schema done) (assignments : List (String × Literal)) :
    (assignments.foldl (fun draft pair => draft.assign pair.1 pair.2) draft).Records schema
      (done ++ assignments) := by
  induction assignments generalizing draft done with
  | nil => simpa using h
  | cons pair rest ih => simpa using ih (h.assign pair.1 pair.2)

end Draft.Records

/-- A qualifier is refused for the first name that is not declared, and else has the last values
    assigned. -/
theorem ofAssignments_eq (schema : Schema) (assignments : List (String × Literal)) :
    ofAssignments schema assignments =
      match assignments.find? fun pair => !schema.declares pair.1 with
      | some pair => .error (.undeclared schema.type.render pair.1)
      | none => .ok ⟨schema, NameMap.ofList assignments⟩ := by
  have h := (Draft.Records.empty schema).foldl assignments
  rw [List.nil_append] at h
  rw [ofAssignments, Draft.finish, h.unknown_eq, h.schema_eq, h.explicit_eq]
  cases assignments.find? fun pair => !schema.declares pair.1 <;> rfl

theorem ofAssignments_eq_ok_iff {schema : Schema} {assignments : List (String × Literal)}
    {qualifier : Qualifier} : ofAssignments schema assignments = .ok qualifier ↔
      (∀ pair ∈ assignments, schema.declares pair.1 = true) ∧
        qualifier = ⟨schema, NameMap.ofList assignments⟩ := by
  have hall : (∀ pair ∈ assignments, schema.declares pair.1 = true) ↔
      (assignments.find? fun pair => !schema.declares pair.1) = none := by
    simp [List.find?_eq_none]
  rw [ofAssignments_eq, hall]
  cases assignments.find? fun pair => !schema.declares pair.1 with
  | none => simp [eq_comm]
  | some pair => simp

/-! ## What is refused -/

section

variable {type : TypeExpr} {declarations : List (String × Option Literal)}
  {assignments : List (String × Literal)}

/-- The first name assigned that is not declared. -/
def FirstUndeclared (declarations : List (String × Option Literal))
    (assignments : List (String × Literal)) (name : String) : Prop :=
  ∃ before value after, assignments = before ++ (name, value) :: after ∧
    name ∉ declarations.map Prod.fst ∧ ∀ pair ∈ before, pair.1 ∈ declarations.map Prod.fst

theorem firstUndeclared_iff {name : String} : FirstUndeclared declarations assignments name ↔
    ∃ value, (assignments.find? fun pair =>
      !(Schema.ofDeclarations type declarations).declares pair.1) = some (name, value) := by
  simp only [List.find?_eq_some_iff_append, Bool.not_eq_true', Bool.not_not,
    ← Bool.not_eq_true, Schema.declares_ofDeclarations_iff]
  constructor
  · rintro ⟨before, value, after, hsplit, hname, hbefore⟩
    exact ⟨value, hname, before, after, hsplit, hbefore⟩
  · rintro ⟨value, hname, before, after, hsplit, hbefore⟩
    exact ⟨before, value, after, hsplit, hname, hbefore⟩

theorem ofAssignments_eq_error_iff {fault : MemberFault} :
    ofAssignments (.ofDeclarations type declarations) assignments = .error fault ↔
      ∃ name, FirstUndeclared declarations assignments name ∧
        fault = .undeclared type.render name := by
  simp only [@firstUndeclared_iff type]
  rw [ofAssignments_eq]
  cases assignments.find? fun pair =>
      !(Schema.ofDeclarations type declarations).declares pair.1 with
  | none => simp
  | some pair =>
    obtain ⟨name, value⟩ := pair
    simp [Schema.ofDeclarations, eq_comm]

/-- There is a first name if there is any. -/
theorem exists_firstUndeclared_iff : (∃ name, FirstUndeclared declarations assignments name) ↔
    ∃ pair ∈ assignments, pair.1 ∉ declarations.map Prod.fst := by
  constructor
  · rintro ⟨name, before, value, after, rfl, hname, -⟩
    exact ⟨(name, value), by simp, hname⟩
  · rintro ⟨pair, hpair, hname⟩
    have hsome : (assignments.find? fun pair => pair.1 ∉ declarations.map Prod.fst).isSome := by
      rw [List.find?_isSome]
      exact ⟨pair, hpair, by simpa using hname⟩
    obtain ⟨⟨first, value⟩, hfirst⟩ := Option.isSome_iff_exists.1 hsome
    obtain ⟨hfirst, before, after, hsplit, hbefore⟩ := List.find?_eq_some_iff_append.1 hfirst
    exact ⟨first, before, value, after, hsplit, by simpa using hfirst, by simpa using hbefore⟩

/-! ## What is kept -/

/-- What reading a member of a qualifier gives. -/
inductive Reads (type : TypeExpr) (declarations : List (String × Option Literal))
    (assignments : List (String × Literal)) (member : String) : Except MemberFault Literal → Prop
  | given {value} : LastOf assignments member value →
      Reads type declarations assignments member (.ok value)
  | default {value} : member ∉ assignments.map Prod.fst →
      LastOf declarations member (some value) →
      Reads type declarations assignments member (.ok value)
  | missing : member ∉ assignments.map Prod.fst → LastOf declarations member none →
      Reads type declarations assignments member (.error (.missing type.render member))
  | undeclared : member ∉ assignments.map Prod.fst → member ∉ declarations.map Prod.fst →
      Reads type declarations assignments member (.error (.undeclared type.render member))

/-- What a qualifier keeps of the declarations of its schema and the assignments to its members. -/
structure Keeps (qualifier : Qualifier) (type : TypeExpr)
    (declarations : List (String × Option Literal)) (assignments : List (String × Literal)) :
    Prop where
  schema_eq : qualifier.schema = .ofDeclarations type declarations
  /-- A member reads as the last value assigned, or else as the last default declared. -/
  reads : ∀ member result, qualifier.get member = result ↔
    Reads type declarations assignments member result
  /-- The names of the members given are those assigned, each of them once, -/
  names : ∀ name, name ∈ qualifier.explicit.map Prod.fst ↔ name ∈ assignments.map Prod.fst
  /-- in the order of their bytes, -/
  sorted : (qualifier.explicit.map fun pair => Text.bytes pair.1).Pairwise (· < ·)
  /-- with the last values assigned. -/
  values : ∀ name value, (name, value) ∈ qualifier.explicit ↔ LastOf assignments name value

theorem get_iff_reads {qualifier : Qualifier}
    (hschema : qualifier.schema = .ofDeclarations type declarations)
    (hexplicit : qualifier.explicit = NameMap.ofList assignments) {member : String}
    {result : Except MemberFault Literal} :
    qualifier.get member = result ↔ Reads type declarations assignments member result := by
  have hmembers : qualifier.schema.members = NameMap.ofList declarations := by rw [hschema]; rfl
  have htype : qualifier.schema.type = type := by rw [hschema]; rfl
  rw [get, hmembers, htype, hexplicit]
  constructor
  · rintro rfl
    cases hgiven : NameMap.get? (NameMap.ofList assignments) member with
    | some value => exact .given (NameMap.get?_ofList_eq_some_iff.1 hgiven)
    | none =>
      have hfree := NameMap.get?_ofList_eq_none_iff.1 hgiven
      cases hdeclared : NameMap.get? (NameMap.ofList declarations) member with
      | none => exact .undeclared hfree (NameMap.get?_ofList_eq_none_iff.1 hdeclared)
      | some declared =>
        have hlast := NameMap.get?_ofList_eq_some_iff.1 hdeclared
        cases declared with
        | none => exact .missing hfree hlast
        | some value => exact .default hfree hlast
  · intro h
    cases h with
    | given hlast => rw [NameMap.get?_ofList_eq_some_iff.2 hlast]
    | default hfree hlast =>
      rw [NameMap.get?_ofList_eq_none_iff.2 hfree, NameMap.get?_ofList_eq_some_iff.2 hlast]
    | missing hfree hlast =>
      rw [NameMap.get?_ofList_eq_none_iff.2 hfree, NameMap.get?_ofList_eq_some_iff.2 hlast]
    | undeclared hfree hnone =>
      rw [NameMap.get?_ofList_eq_none_iff.2 hfree, NameMap.get?_ofList_eq_none_iff.2 hnone]

theorem keeps_of_ok {qualifier : Qualifier}
    (h : ofAssignments (.ofDeclarations type declarations) assignments = .ok qualifier) :
    qualifier.Keeps type declarations assignments := by
  obtain ⟨-, rfl⟩ := ofAssignments_eq_ok_iff.1 h
  have hincreasing := NameMap.ofList_increasing assignments
  have hvalues : ∀ name value, (name, value) ∈ NameMap.ofList assignments ↔
      LastOf assignments name value := fun name value => by
    rw [← hincreasing.get?_eq_some_iff, NameMap.get?_ofList_eq_some_iff]
  refine ⟨rfl, fun _ _ => get_iff_reads rfl rfl, fun name => ?_, ?_, hvalues⟩
  · rw [← not_iff_not, ← @NameMap.get?_ofList_eq_none_iff Literal assignments,
      Option.eq_none_iff_forall_ne_some]
    simp only [Ne, hincreasing.get?_eq_some_iff]
    simp
  · rw [List.pairwise_map]
    exact hincreasing.imp fun hlt => Text.bytes_lt hlt

/-! ## Results -/

/-- Whatever is declared and assigned, a qualifier is refused exactly if a name is assigned that is
    not declared, and for the first such name; if it is not refused it keeps the last values and
    defaults. -/
theorem ofAssignments_follows (type : TypeExpr) (declarations : List (String × Option Literal))
    (assignments : List (String × Literal)) :
    ((∃ fault, ofAssignments (.ofDeclarations type declarations) assignments = .error fault) ↔
      ∃ pair ∈ assignments, pair.1 ∉ declarations.map Prod.fst) ∧
    (∀ fault, ofAssignments (.ofDeclarations type declarations) assignments = .error fault ↔
      ∃ name, FirstUndeclared declarations assignments name ∧
        fault = .undeclared type.render name) ∧
    ∀ qualifier, ofAssignments (.ofDeclarations type declarations) assignments = .ok qualifier →
      qualifier.Keeps type declarations assignments := by
  refine ⟨?_, fun _ => ofAssignments_eq_error_iff, fun _ => keeps_of_ok⟩
  rw [← exists_firstUndeclared_iff]
  simp only [ofAssignments_eq_error_iff]
  constructor
  · rintro ⟨_, name, hname, -⟩
    exact ⟨name, hname⟩
  · rintro ⟨name, hname⟩
    exact ⟨_, name, hname, rfl⟩

end

end Qualifier

/-! ## Limits declared and assigned twice -/

namespace Limits

def count (n : Int32) : Literal := .scalar (.int n)

def text (s : String) : Literal := .scalar (.text s)

def declarations : List (String × Option Literal) :=
  [("retries", some (count 5)), ("name", none), ("owner", none), ("retries", some (count 3))]

def assignments : List (String × Literal) := [("name", text "db"), ("name", text "cache")]

def schema : Schema := .ofDeclarations (.plain "Limits") declarations

/-- The last name and the last default are read, an owner is missing; and of two names that are not
    declared the first one is reported, though declared ones stand around it. -/
theorem limits_kept :
    (∃ limits, Qualifier.ofAssignments schema assignments = .ok limits ∧
      limits.get "name" = .ok (text "cache") ∧ limits.get "retries" = .ok (count 3) ∧
      limits.get "owner" = .error (.missing "Limits" "owner") ∧
      limits.explicit.map Prod.fst = ["name"]) ∧
    Qualifier.ofAssignments schema
        (assignments ++ [("timeout", count 9), ("owner", text "me"), ("zone", text "a")]) =
      .error (.undeclared "Limits" "timeout") := by
  constructor
  · obtain ⟨-, -, hkeeps⟩ :=
      Qualifier.ofAssignments_follows (.plain "Limits") declarations assignments
    have hkept := hkeeps ⟨schema, [("name", text "cache")]⟩ rfl
    refine ⟨_, rfl, ?_, ?_, ?_, rfl⟩
    · exact (hkept.reads _ _).2 (.given ⟨[("name", text "db")], [], rfl, by simp⟩)
    · exact (hkept.reads _ _).2
        (.default (by decide) ⟨declarations.take 3, [], rfl, by simp⟩)
    · exact (hkept.reads _ _).2
        (.missing (by decide) ⟨declarations.take 2, declarations.drop 3, rfl, by decide⟩)
  · obtain ⟨-, hrefused, -⟩ := Qualifier.ofAssignments_follows (.plain "Limits") declarations
      (assignments ++ [("timeout", count 9), ("owner", text "me"), ("zone", text "a")])
    refine (hrefused _).2 ⟨"timeout", ⟨assignments, count 9, [("owner", text "me"),
      ("zone", text "a")], rfl, by decide, ?_⟩, rfl⟩
    decide

end Limits

end Injection
