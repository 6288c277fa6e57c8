/-
  Qualifiers as what their members read as.

  Two qualifiers are compared through all their members at once, those without
  a value too; a member is read by itself.  Both tell the same qualifiers apart.

  * `Qualifier.Made`: the ways to make a qualifier;
  * `Qualifier.get_eq_effective`: a member reads as what it comes to;
  * `Qualifier.ReadsAlike`: two readings that cannot be told apart;
  * `Qualifier.equal_iff_reads_alike`: qualifiers are equal if their types are
    and all members read alike, and only then; so a default may be given, and
    defaults that are overridden do not matter.
-/
import Injection.Proofs.Assignment
import Injection.Proofs.Value
import Mathlib.Data.List.Sort

namespace Injection

/-- Maps that give the same answers are the same. -/
theorem NameMap.Increasing.ext {α : Type} {map map' : NameMap α} (h : map.Increasing)
    (h' : map'.Increasing) (hget : ∀ name, get? map name = get? map' name) : map = map' := by
  have hirrefl : Std.Irrefl fun a b : String × α => a.1 < b.1 := ⟨fun a => String.lt_irrefl a.1⟩
  have hasymm : Std.Asymm fun a b : String × α => a.1 < b.1 :=
    ⟨fun a b hab hba => String.lt_asymm hab hba⟩
  refine List.Pairwise.eq_of_mem_iff h h' fun pair => ?_
  rw [← h.get?_eq_some_iff, hget, h'.get?_eq_some_iff]

namespace Qualifier

/-! ## Ways to make a qualifier -/

/-- Qualifiers that were made: the standard one with a name, one that gives no member of its
    schema, or one with the members assigned. -/
inductive Made : Qualifier → Prop
  | named (name : String) : Made (.named name)
  | marker (type : TypeExpr) (declarations : List (String × Option Literal)) :
    Made (.marker (.ofDeclarations type declarations))
  | assigned {type declarations assignments qualifier} :
    ofAssignments (.ofDeclarations type declarations) assignments = .ok qualifier → Made qualifier

/-- The members of a qualifier that was made have the order of their names. -/
theorem Made.increasing {qualifier : Qualifier} (h : qualifier.Made) :
    NameMap.Increasing qualifier.schema.members ∧ NameMap.Increasing qualifier.explicit := by
  cases h with
  | named name => exact ⟨NameMap.ofList_increasing _, List.pairwise_singleton _ _⟩
  | marker type declarations => exact ⟨NameMap.ofList_increasing declarations, .nil⟩
  | assigned h =>
    obtain ⟨-, rfl⟩ := ofAssignments_eq_ok_iff.1 h
    exact ⟨NameMap.ofList_increasing _, NameMap.ofList_increasing _⟩

/-! ## What members come to -/

theorem get?_effective {qualifier : Qualifier} (h : NameMap.Increasing qualifier.explicit)
    (member : String) : NameMap.get? qualifier.effective member =
      ((NameMap.get? qualifier.explicit member).map some).or
        (NameMap.get? qualifier.schema.members member) := by
  rw [effective, NameMap.get?_overlay, (h.map some).lookup_reverse, NameMap.get?_map]

/-- A member reads as what it comes to. -/
theorem get_eq_effective {qualifier : Qualifier} (h : NameMap.Increasing qualifier.explicit)
    (member : String) : qualifier.get member =
      match NameMap.get? qualifier.effective member with
      | some (some value) => .ok value
      | some none => .error (.missing qualifier.schema.type.render member)
      | none => .error (.undeclared qualifier.schema.type.render member) := by
  rw [get, get?_effective h]
  cases NameMap.get? qualifier.explicit member with
  | some given => rfl
  | none =>
    cases NameMap.get? qualifier.schema.members member with
    | none => rfl
    | some declared => cases declared <;> rfl

/-- Qualifiers are equal if their types are and all members come to the same, and only then. -/
theorem beq_iff_effective {a b : Qualifier} (ha : a.Made) (hb : b.Made) :
    (a == b) = true ↔ a.schema.type = b.schema.type ∧ ∀ member,
      (NameMap.get? a.effective member).map memberValue =
        (NameMap.get? b.effective member).map memberValue := by
  have hincreasing : ∀ {q : Qualifier}, q.Made → q.effective.Increasing := fun h =>
    h.increasing.1.overlay _
  have hmembers : a.effective.map (Prod.map id memberValue) =
      b.effective.map (Prod.map id memberValue) ↔ ∀ member,
        (NameMap.get? a.effective member).map memberValue =
          (NameMap.get? b.effective member).map memberValue := by
    simp only [← NameMap.get?_map]
    constructor
    · intro h member
      rw [h]
    · intro h
      exact ((hincreasing ha).map memberValue).ext ((hincreasing hb).map memberValue) h
  rw [← hmembers, ← Value.qualifier.injEq, ← value_eq, ← value_eq]
  exact Qualifier.same_iff a b

/-! ## Readings -/

/-- Two readings that cannot be told apart: both give equal values, both miss a value, or both are
    of a member that is not declared. -/
inductive ReadsAlike : Except MemberFault Literal → Except MemberFault Literal → Prop
  | value {a b : Literal} : (a == b) = true → ReadsAlike (.ok a) (.ok b)
  | missing {type type' member member'} :
    ReadsAlike (.error (.missing type member)) (.error (.missing type' member'))
  | undeclared {type type' member member'} :
    ReadsAlike (.error (.undeclared type member)) (.error (.undeclared type' member'))

theorem readsAlike_iff {a b : Qualifier} (ha : a.Made) (hb : b.Made) (member : String) :
    ReadsAlike (a.get member) (b.get member) ↔
      (NameMap.get? a.effective member).map memberValue =
        (NameMap.get? b.effective member).map memberValue := by
  rw [get_eq_effective ha.increasing.2, get_eq_effective hb.increasing.2]
  cases NameMap.get? a.effective member with
  | none =>
    cases NameMap.get? b.effective member with
    | none => exact iff_of_true .undeclared rfl
    | some other => cases other <;> exact iff_of_false nofun nofun
  | some first =>
    cases first with
    | none =>
      cases NameMap.get? b.effective member with
      | none => exact iff_of_false nofun nofun
      | some other =>
        cases other with
        | none => exact iff_of_true .missing rfl
        | some value => exact iff_of_false nofun (by simp [memberValue])
    | some value =>
      cases NameMap.get? b.effective member with
      | none => exact iff_of_false nofun nofun
      | some other =>
        cases other with
        | none => exact iff_of_false nofun (by simp [memberValue])
        | some value' =>
          have hvalues : (value == value') = true ↔ value.value = value'.value :=
            Literal.same_iff value value'
          simp only [Option.map_some, memberValue, Option.some.injEq, ← hvalues]
          constructor
          · rintro ⟨⟩
            assumption
          · exact .value

/-- Qualifiers that were made are equal if their types are and all members read alike, and only
    then. -/
theorem beq_iff_readsAlike {a b : Qualifier} (ha : a.Made) (hb : b.Made) :
    (a == b) = true ↔ a.schema.type = b.schema.type ∧
      ∀ member, ReadsAlike (a.get member) (b.get member) := by
  simp only [readsAlike_iff ha hb]
  exact beq_iff_effective ha hb

theorem ReadsAlike.refl (result : Except MemberFault Literal) : ReadsAlike result result := by
  cases result with
  | ok value => exact .value ((Literal.same_iff value value).2 rfl)
  | error fault =>
    cases fault with
    | missing => exact .missing
    | undeclared => exact .undeclared

/-! ## Defaults -/

section

variable {type : TypeExpr} {declarations : List (String × Option Literal)}
  {assignments : List (String × Literal)} {qualifier : Qualifier}

/-- Values assigned to one name do not matter for others. -/
theorem get?_ofList_other {before after : List (String × Literal)} {name other : String}
    (h : other ≠ name) (value : Literal) :
    NameMap.get? (NameMap.ofList (before ++ (name, value) :: after)) other =
      NameMap.get? (NameMap.ofList (before ++ after)) other := by
  have hother : (other == name) = false := by simpa using h
  simp [NameMap.get?_ofList, List.lookup_append, List.lookup_cons, hother]

/-- A qualifier that gives a default is equal to the one that leaves it implicit. -/
theorem assign_default {before after : List (String × Literal)} {name : String}
    {default value : Literal}
    (hdefault : (Schema.ofDeclarations type declarations).default? name = some default)
    (hvalue : (value == default) = true) (hfree : name ∉ (before ++ after).map Prod.fst)
    (h : ofAssignments (.ofDeclarations type declarations) (before ++ after) = .ok qualifier) :
    ∃ qualifier', ofAssignments (.ofDeclarations type declarations)
        (before ++ (name, value) :: after) = .ok qualifier' ∧ (qualifier == qualifier') = true := by
  have hmember : NameMap.get? (NameMap.ofList declarations) name = some (some default) :=
    Option.join_eq_some_iff.1 hdefault
  have hname : (Schema.ofDeclarations type declarations).declares name = true :=
    Option.isSome_of_eq_some hmember
  obtain ⟨hdeclared, rfl⟩ := ofAssignments_eq_ok_iff.1 h
  have h' : ofAssignments (.ofDeclarations type declarations) (before ++ (name, value) :: after) =
      .ok ⟨.ofDeclarations type declarations,
        NameMap.ofList (before ++ (name, value) :: after)⟩ := by
    refine ofAssignments_eq_ok_iff.2 ⟨fun pair hpair => ?_, rfl⟩
    rcases List.mem_append.1 hpair with hpair | hpair
    · exact hdeclared pair (List.mem_append_left _ hpair)
    · rcases List.mem_cons.1 hpair with rfl | hpair
      · exact hname
      · exact hdeclared pair (List.mem_append_right _ hpair)
  refine ⟨_, h', (beq_iff_readsAlike (.assigned h) (.assigned h')).2 ⟨rfl, fun member => ?_⟩⟩
  by_cases hsame : member = name
  · have hlast : LastOf (before ++ (name, value) :: after) name value := by
      refine ⟨before, after, rfl, fun hafter => hfree ?_⟩
      rw [List.map_append]
      exact List.mem_append_right _ hafter
    rw [hsame, ((keeps_of_ok h).reads name (.ok default)).2
        (.default hfree (NameMap.get?_ofList_eq_some_iff.1 hmember)),
      ((keeps_of_ok h').reads name (.ok value)).2 (.given hlast)]
    exact .value ((Literal.same_iff _ _).2 ((Literal.same_iff _ _).1 hvalue).symm)
  · rw [get, get, get?_ofList_other hsame]
    exact .refl _

/-- Schemas that declare the same names, with defaults that differ only where members are given,
    make equal qualifiers. -/
theorem override_defaults {declarations' : List (String × Option Literal)}
    (hnames : ∀ name, name ∈ declarations.map Prod.fst ↔ name ∈ declarations'.map Prod.fst)
    (hdefaults : ∀ name, name ∉ assignments.map Prod.fst →
      ((Schema.ofDeclarations type declarations).default? name ==
        (Schema.ofDeclarations type declarations').default? name) = true)
    (h : ofAssignments (.ofDeclarations type declarations) assignments = .ok qualifier) :
    ∃ qualifier', ofAssignments (.ofDeclarations type declarations') assignments =
        .ok qualifier' ∧ (qualifier == qualifier') = true := by
  obtain ⟨hdeclared, rfl⟩ := ofAssignments_eq_ok_iff.1 h
  have h' : ofAssignments (.ofDeclarations type declarations') assignments =
      .ok ⟨.ofDeclarations type declarations', NameMap.ofList assignments⟩ := by
    refine ofAssignments_eq_ok_iff.2 ⟨fun pair hpair => ?_, rfl⟩
    have hname := hdeclared pair hpair
    rw [Schema.declares_ofDeclarations_iff] at hname ⊢
    exact (hnames pair.1).1 hname
  refine ⟨_, h', (beq_iff_readsAlike (.assigned h) (.assigned h')).2 ⟨rfl, fun member => ?_⟩⟩
  cases hgiven : NameMap.get? (NameMap.ofList assignments) member with
  | some value =>
    simp only [get, hgiven]
    exact .refl _
  | none =>
    have hname : NameMap.get? (NameMap.ofList declarations) member = none ↔
        NameMap.get? (NameMap.ofList declarations') member = none := by
      rw [NameMap.get?_ofList_eq_none_iff, NameMap.get?_ofList_eq_none_iff, hnames]
    have hdefault := hdefaults member (NameMap.get?_ofList_eq_none_iff.1 hgiven)
    simp only [Schema.default?, Schema.ofDeclarations] at hdefault
    simp only [get, hgiven, Schema.ofDeclarations]
    -- the member is declared by both schemas or by neither, and with equal defaults if with any
    cases hdeclared : NameMap.get? (NameMap.ofList declarations) member with
    | none =>
      rw [hname.1 hdeclared]
      exact .undeclared
    | some first =>
      obtain ⟨second, hsecond⟩ := Option.ne_none_iff_exists'.1 (hname.not.1 (by simp [hdeclared]))
      rw [hdeclared, hsecond] at hdefault
      rw [hsecond]
      cases first with
      | none =>
        cases second with
        | none => exact .missing
        | some value' => cases hdefault
      | some value =>
        cases second with
        | none => cases hdefault
        | some value' => exact .value hdefault

end

/-! ## Results -/

/-- Two qualifiers that were made are equal exactly if their types are the same and each member
    reads alike: with equal values, without a value in both, or undeclared in both.  So a default
    that is given, wherever it stands among the assignments, makes no difference; nor do defaults
    that are all overridden. -/
theorem equal_iff_reads_alike :
    (∀ a b : Qualifier, a.Made → b.Made → ((a == b) = true ↔
      a.schema.type = b.schema.type ∧ ∀ member, ReadsAlike (a.get member) (b.get member))) ∧
    (∀ type declarations before after name default value qualifier,
      (Schema.ofDeclarations type declarations).default? name = some default →
      (value == default) = true → name ∉ (before ++ after).map Prod.fst →
      ofAssignments (.ofDeclarations type declarations) (before ++ after) = .ok qualifier →
      ∃ qualifier', ofAssignments (.ofDeclarations type declarations)
        (before ++ (name, value) :: after) = .ok qualifier' ∧ (qualifier == qualifier') = true) ∧
    ∀ type declarations declarations' assignments qualifier,
      (∀ name, name ∈ declarations.map Prod.fst ↔ name ∈ declarations'.map Prod.fst) →
      (∀ name, name ∉ assignments.map Prod.fst →
        ((Schema.ofDeclarations type declarations).default? name ==
          (Schema.ofDeclarations type declarations').default? name) = true) →
      ofAssignments (.ofDeclarations type declarations) assignments = .ok qualifier →
      ∃ qualifier', ofAssignments (.ofDeclarations type declarations') assignments =
        .ok qualifier' ∧ (qualifier == qualifier') = true :=
  ⟨fun _ _ => beq_iff_readsAlike,
    fun _ _ _ _ _ _ _ _ hdefault hvalue hfree h => assign_default hdefault hvalue hfree h,
    fun _ _ _ _ _ hnames hdefaults h => override_defaults hnames hdefaults h⟩

end Qualifier

/-! ## Limits with other defaults -/

namespace Limits

/-- The same names with another default and in another order. -/
def declarations' : List (String × Option Literal) :=
  [("owner", none), ("name", none), ("retries", some (count 7))]

def schema' : Schema := .ofDeclarations (.plain "Limits") declarations'

/-- The limits with the default given equal those without it; so do, under the other schema, limits
    that give all of its defaults; and limits that are equal miss the same owner. -/
theorem limits_equal :
    (∃ limits, Qualifier.ofAssignments schema [("name", text "db"), ("retries", count 3)] =
        .ok limits ∧
      (⟨schema, [("name", text "db")]⟩ == limits) = true ∧
      Qualifier.ReadsAlike (Qualifier.get ⟨schema, [("name", text "db")]⟩ "owner")
        (limits.get "owner")) ∧
    ∃ limits, Qualifier.ofAssignments schema' [("retries", count 9)] = .ok limits ∧
      (⟨schema, [("retries", count 9)]⟩ == limits) = true := by
  obtain ⟨hreads, hdefault, hoverridden⟩ := Qualifier.equal_iff_reads_alike
  constructor
  · obtain ⟨limits, hlimits, hequal⟩ := hdefault (.plain "Limits") declarations
      [("name", text "db")] [] "retries" (count 3) (count 3) ⟨schema, [("name", text "db")]⟩ rfl
      (by decide +kernel) (by decide) rfl
    refine ⟨limits, hlimits, hequal, ?_⟩
    have hmade : Qualifier.Made ⟨schema, [("name", text "db")]⟩ :=
      .assigned (show Qualifier.ofAssignments schema [("name", text "db")] = _ from rfl)
    exact ((hreads _ _ hmade (.assigned hlimits)).1 hequal).2 "owner"
  · refine hoverridden (.plain "Limits") declarations declarations' [("retries", count 9)]
      ⟨schema, [("retries", count 9)]⟩ (fun name => ?_) (fun name hname => ?_) rfl
    · simp only [declarations, declarations', List.map_cons, List.map_nil, List.mem_cons,
        List.not_mem_nil, or_false]
      tauto
    · have hother : name ≠ "retries" := by simpa using hname
      -- no other name has a default
      have hmembers : schema.members =
          [("name", none), ("owner", none), ("retries", some (count 3))] := rfl
      have hmembers' : schema'.members =
          [("name", none), ("owner", none), ("retries", some (count 7))] := rfl
      show (schema.default? name == schema'.default? name) = true
      simp only [Schema.default?, hmembers, hmembers', NameMap.get?_cons, hother, if_false]
      split_ifs <;> rfl

end Limits

end Injection
