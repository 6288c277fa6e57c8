/-
  What literals and qualifiers stand for.

  A value is what is left of a literal when the way of writing it is forgotten.
  Comparing two literals as they are written decides whether they stand for the
  same value, so equality is an equivalence.

  * `Qualifier.value_eq`, `Qualifier.same_eq`: the value of a qualifier and the
    comparison with it, read off what its members come to;
  * `Literal.same_iff`, `Qualifier.same_iff`: literals and qualifiers are equal
    exactly if they have the same value.
-/
import Injection.Key.Literal
import Injection.Proofs.NameMap

namespace Injection

/-! ## Values -/

/-- A value: what is left of a literal when the way of writing it is forgotten. -/
inductive Value where
  | scalar (value : Scalar)
  | array (elements : List Value)
  /-- The members in the order of their names, those without a value too. -/
  | qualifier (type : TypeExpr) (members : List (String × Option Value))

mutual

def Literal.value : Literal → Value
  | .scalar value => .scalar value
  | .packed elements => .array (elements.scalars.map .scalar)
  | .objects elements => .array (Literal.values elements)
  | .qualifier qualifier => qualifier.value

/-- The value of a qualifier: its type, and the members it gives over the declared defaults. -/
def Qualifier.value : Qualifier → Value
  | ⟨⟨type, declared⟩, explicit⟩ =>
    .qualifier type (NameMap.overlay (Schema.values declared) (Qualifier.values explicit))

def Literal.values : List Literal → List Value
  | [] => []
  | element :: elements => element.value :: Literal.values elements

def Schema.values : List (String × Option Literal) → List (String × Option Value)
  | [] => []
  | (name, none) :: members => (name, none) :: Schema.values members
  | (name, some default) :: members => (name, some default.value) :: Schema.values members

def Qualifier.values : List (String × Literal) → List (String × Option Value)
  | [] => []
  | (name, given) :: members => (name, some given.value) :: Qualifier.values members

end

/-! ## Arrays -/

/-- Packed arrays are equal if they hold the same scalars, and only then. -/
theorem PackedArray.same_iff (a b : PackedArray) : a.same b = true ↔ a.scalars = b.scalars := by
  fun_cases PackedArray.same a b with
  | case9 => exact decide_eq_true_iff
  | _ => simp [scalars, List.map_inj_right]

theorem Scalar.same_iff (scalar : Scalar) (literal : Literal) :
    scalar.same literal = true ↔ Value.scalar scalar = literal.value := by
  cases literal with
  | scalar other => simp [same, Literal.value]
  | packed elements | objects elements => simp [same, Literal.value]
  | qualifier qualifier =>
    obtain ⟨⟨type, declared⟩, explicit⟩ := qualifier
    simp [same, Literal.value, Qualifier.value]

theorem Scalar.sameAll_iff (scalars : List Scalar) (literals : List Literal) :
    sameAll scalars literals = true ↔ scalars.map Value.scalar = Literal.values literals := by
  induction scalars generalizing literals with
  | nil => cases literals <;> simp [sameAll, Literal.values]
  | cons scalar scalars ih =>
    cases literals with
    | nil => simp [sameAll, Literal.values]
    | cons literal literals => simp [sameAll, Literal.values, scalar.same_iff, ih]

theorem Literal.values_eq_map (elements : List Literal) :
    Literal.values elements = elements.map Literal.value := by
  induction elements with
  | nil => rfl
  | cons element elements ih => simp [Literal.values, ih]

theorem Literal.values_scalars (scalars : List Scalar) :
    Literal.values (scalars.map .scalar) = scalars.map .scalar := by
  rw [Literal.values_eq_map, List.map_map]
  exact List.map_congr_left fun scalar _ => by simp [Literal.value]

/-! ## Members -/

/-- The value that a member comes to, if it comes to any. -/
def Qualifier.memberValue (member : Option Literal) : Option Value := member.map Literal.value

/-- Whether two members come to the same. -/
def Qualifier.memberSame : Option Literal → Option Literal → Bool
  | none => Option.isNone
  | some literal => Option.any literal.same

theorem Schema.values_eq_map (members : List (String × Option Literal)) :
    Schema.values members = members.map (Prod.map id Qualifier.memberValue) := by
  induction members with
  | nil => rfl
  | cons member members ih =>
    obtain ⟨name, _ | default⟩ := member <;> simp [Schema.values, Qualifier.memberValue, ih]

theorem Qualifier.values_eq_map (members : List (String × Literal)) :
    Qualifier.values members =
      (members.map (Prod.map id some)).map (Prod.map id Qualifier.memberValue) := by
  induction members with
  | nil => rfl
  | cons member members ih =>
    rw [Qualifier.values, ih]
    rfl

theorem Schema.tests_eq_map (members : List (String × Option Literal)) :
    Schema.tests members = members.map (Prod.map id Qualifier.memberSame) := by
  induction members with
  | nil => rfl
  | cons member members ih =>
    obtain ⟨name, _ | default⟩ := member <;> simp [Schema.tests, Qualifier.memberSame, ih]

theorem Qualifier.tests_eq_map (members : List (String × Literal)) :
    Qualifier.tests members =
      (members.map (Prod.map id some)).map (Prod.map id Qualifier.memberSame) := by
  induction members with
  | nil => rfl
  | cons member members ih =>
    rw [Qualifier.tests, ih]
    rfl

/-- The value of a qualifier has the values of its members. -/
theorem Qualifier.value_eq (qualifier : Qualifier) :
    qualifier.value = .qualifier qualifier.schema.type
      (qualifier.effective.map (Prod.map id Qualifier.memberValue)) := by
  obtain ⟨⟨type, declared⟩, explicit⟩ := qualifier
  rw [Qualifier.value, Schema.values_eq_map, Qualifier.values_eq_map, NameMap.overlay_map]
  rfl

/-- Qualifiers are compared member by member. -/
theorem Qualifier.same_eq (a b : Qualifier) :
    a.same b = (decide (a.schema.type = b.schema.type) &&
      Qualifier.pass (a.effective.map (Prod.map id Qualifier.memberSame)) b.effective) := by
  obtain ⟨⟨type, declared⟩, explicit⟩ := a
  rw [Qualifier.same, Schema.tests_eq_map, Qualifier.tests_eq_map, NameMap.overlay_map]
  rfl

/-- A comparison of members that is right about each of them is right about all. -/
theorem Qualifier.pass_iff {members others : NameMap (Option Literal)}
    (h : ∀ member ∈ members, ∀ other,
      memberSame member.2 other = true ↔ memberValue member.2 = memberValue other) :
    pass (members.map (Prod.map id memberSame)) others = true ↔
      members.map (Prod.map id memberValue) = others.map (Prod.map id memberValue) := by
  induction members generalizing others with
  | nil => cases others <;> simp [pass]
  | cons member members ih =>
    obtain ⟨hmember, hmembers⟩ := List.forall_mem_cons.1 h
    cases others with
    | nil => simp [pass]
    | cons other others =>
      simp only [List.map_cons, Prod.map, id, pass, Bool.and_eq_true, decide_eq_true_iff, hmember,
        ih hmembers, List.cons.injEq, Prod.mk.injEq]

/-! ## Equality -/

mutual

/-- Literals are equal if they have the same value, and only then. -/
theorem Literal.same_iff : ∀ a b : Literal, a.same b = true ↔ a.value = b.value
  | .scalar scalar, b => by rw [Literal.same, Literal.value, scalar.same_iff]
  | .packed elements, b => by
    cases b with
    | scalar => simp [Literal.same, Literal.value]
    | packed elements' =>
      have hinj : elements.scalars.map Value.scalar = elements'.scalars.map .scalar ↔
          elements.scalars = elements'.scalars := List.map_inj_right fun _ _ => Value.scalar.inj
      rw [Literal.same, Literal.value, Literal.value, elements.same_iff, Value.array.injEq, hinj]
    | objects elements' =>
      rw [Literal.same, Literal.value, Literal.value, Scalar.sameAll_iff, Value.array.injEq]
    | qualifier => simp [Literal.same, Literal.value, Qualifier.value_eq]
  | .objects elements, b => by
    cases b with
    | scalar => simp [Literal.same, Literal.value]
    | packed elements' =>
      rw [Literal.same, Literal.value, Literal.value, Literal.sameAll_iff elements,
        Literal.values_scalars, Value.array.injEq]
    | objects elements' =>
      rw [Literal.same, Literal.value, Literal.value, Literal.sameAll_iff elements,
        Value.array.injEq]
    | qualifier => simp [Literal.same, Literal.value, Qualifier.value_eq]
  | .qualifier qualifier, b => by
    cases b with
    | qualifier qualifier' =>
      rw [Literal.same, Literal.value, Literal.value, Qualifier.same_iff qualifier]
    | scalar | packed | objects => simp [Literal.same, Literal.value, Qualifier.value_eq]

/-- Qualifiers are equal if they have the same value, and only then. -/
theorem Qualifier.same_iff : ∀ a b : Qualifier, a.same b = true ↔ a.value = b.value
  | ⟨⟨type, declared⟩, explicit⟩, b => by
    have hmembers : ∀ member ∈ Qualifier.effective ⟨⟨type, declared⟩, explicit⟩, ∀ other,
        Qualifier.memberSame member.2 other = true ↔
          Qualifier.memberValue member.2 = Qualifier.memberValue other := by
      intro member hmember
      rcases NameMap.mem_overlay hmember with hmember | hmember
      · exact Schema.memberSame_iff declared member hmember
      · obtain ⟨given, hgiven, rfl⟩ := List.mem_map.1 hmember
        exact Qualifier.memberSame_iff explicit given hgiven
    rw [Qualifier.same_eq, Qualifier.value_eq, Qualifier.value_eq, Bool.and_eq_true,
      Qualifier.pass_iff hmembers, decide_eq_true_iff, Value.qualifier.injEq]

theorem Literal.sameAll_iff : ∀ as bs : List Literal,
    Literal.sameAll as bs = true ↔ Literal.values as = Literal.values bs
  | [], bs => by cases bs <;> simp [Literal.sameAll, Literal.values]
  | a :: as, bs => by
    cases bs with
    | nil => simp [Literal.sameAll, Literal.values]
    | cons b bs =>
      simp [Literal.sameAll, Literal.values, Literal.same_iff a, Literal.sameAll_iff as]

theorem Schema.memberSame_iff : ∀ members : List (String × Option Literal),
    ∀ member ∈ members, ∀ other, Qualifier.memberSame member.2 other = true ↔
      Qualifier.memberValue member.2 = Qualifier.memberValue other
  | [] => nofun
  | (_, none) :: members => by
    refine List.forall_mem_cons.2 ⟨fun other => ?_, Schema.memberSame_iff members⟩
    cases other <;> simp [Qualifier.memberSame, Qualifier.memberValue]
  | (_, some default) :: members => by
    refine List.forall_mem_cons.2 ⟨fun other => ?_, Schema.memberSame_iff members⟩
    cases other <;> simp [Qualifier.memberSame, Qualifier.memberValue, Literal.same_iff default]

theorem Qualifier.memberSame_iff : ∀ members : List (String × Literal),
    ∀ member ∈ members, ∀ other, Qualifier.memberSame (some member.2) other = true ↔
      Qualifier.memberValue (some member.2) = Qualifier.memberValue other
  | [] => nofun
  | (_, given) :: members => by
    refine List.forall_mem_cons.2 ⟨fun other => ?_, Qualifier.memberSame_iff members⟩
    cases other <;> simp [Qualifier.memberSame, Qualifier.memberValue, Literal.same_iff given]

end

/-- What may be missing is equal if what is there is, and both or neither is there. -/
theorem Option.beq_iff_map {α β : Type} [BEq α] {f : α → β}
    (h : ∀ a b : α, (a == b) = true ↔ f a = f b) (a b : Option α) :
    (a == b) = true ↔ a.map f = b.map f := by
  cases a <;> cases b <;> simp [h]

end Injection
