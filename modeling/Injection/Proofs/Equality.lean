/-
  Equality of keys and of everything they are made of.

  * `Interchangeable`: an equality is an equivalence, and equal things give a
    hash function the same to read;
  * `ArrayLiteral.beq_iff`: arrays are equal element by element, however they
    are written;
  * `Qualifier.beq_insert_default`: a default may be given or left implicit;
  * `equality_interchangeable`: these laws together, for literals, arrays,
    qualifiers, types and keys.
-/
import Injection.Key.Qualifier
import Injection.Proofs.KeyIdentity

namespace Injection

/-- Equality is an equivalence, and equal things give a hash function the same to read. -/
structure Interchangeable (α : Type) [BEq α] (feed : α → Feed) : Prop where
  equivalence : Equivalence fun a b : α => (a == b) = true
  feed_eq : ∀ a b : α, (a == b) = true → feed a = feed b

/-- Things that are equal if something about them is the same, and that is all that a hash
    function reads of them. -/
theorem Interchangeable.of_iff {α β : Type} [BEq α] {feed : α → Feed} {view : α → β}
    (h : ∀ a b : α, (a == b) = true ↔ view a = view b)
    (hfeed : ∀ a b : α, view a = view b → feed a = feed b) : Interchangeable α feed where
  equivalence :=
    { refl := fun a => (h a a).2 rfl
      symm := fun hab => (h _ _).2 ((h _ _).1 hab).symm
      trans := fun hab hbc => (h _ _).2 (((h _ _).1 hab).trans ((h _ _).1 hbc)) }
  feed_eq a b hab := hfeed a b ((h a b).1 hab)

/-! ## Literals -/

theorem Literal.interchangeable : Interchangeable Literal Literal.feed :=
  .of_iff Literal.same_iff fun a b h => by rw [a.feed_eq, b.feed_eq, h]

/-- Scalars are equal only if they are the same; floating-point numbers are their bits. -/
theorem Literal.beq_scalar_iff (s t : Scalar) :
    (Literal.scalar s == Literal.scalar t) = true ↔ s = t := by
  show Literal.same (.scalar s) (.scalar t) = true ↔ _
  simp [Literal.same, Scalar.same]

/-- Literals that are arrays, packed or not. -/
abbrev ArrayLiteral := { literal : Literal // literal.elements?.isSome = true }

namespace ArrayLiteral

instance : BEq ArrayLiteral := ⟨fun a b => a.1 == b.1⟩

def elements (array : ArrayLiteral) : List Literal := array.1.elements?.get array.2

/-- The feed of an array as a literal. -/
def feed (array : ArrayLiteral) : Feed := array.1.feed

theorem interchangeable : Interchangeable ArrayLiteral feed :=
  .of_iff (fun a b => Literal.same_iff a.1 b.1) fun a b h =>
    Literal.interchangeable.feed_eq a.1 b.1 ((Literal.same_iff a.1 b.1).2 h)

/-- The value of an array has the values of its elements. -/
theorem value_eq (array : ArrayLiteral) :
    array.1.value = .array (array.elements.map Literal.value) := by
  obtain ⟨literal, harray⟩ := array
  cases literal with
  | packed elements =>
    show _ = Value.array ((elements.scalars.map Literal.scalar).map Literal.value)
    rw [Literal.value, ← Literal.values_eq_map, Literal.values_scalars]
  | objects elements => rw [Literal.value, Literal.values_eq_map]; rfl
  | scalar | qualifier => cases harray

/-- Arrays are equal exactly if they are of one length and equal at every index. -/
theorem beq_iff (a b : ArrayLiteral) :
    (a == b) = true ↔ a.elements.length = b.elements.length ∧
      ∀ i : Nat, (a.elements[i]? == b.elements[i]?) = true := by
  have hindex (i : Nat) : (a.elements[i]? == b.elements[i]?) = true ↔
      (a.elements.map Literal.value)[i]? = (b.elements.map Literal.value)[i]? := by
    rw [List.getElem?_map, List.getElem?_map, Option.beq_iff_map Literal.same_iff]
  have hvalue : (a == b) = true ↔
      a.elements.map Literal.value = b.elements.map Literal.value := by
    rw [← Value.array.injEq, ← a.value_eq, ← b.value_eq]
    exact Literal.same_iff a.1 b.1
  simp only [hvalue, hindex, ← List.ext_getElem?_iff]
  exact (and_iff_right_of_imp fun h => by simpa using congrArg List.length h).symm

end ArrayLiteral

/-! ## Qualifiers -/

theorem Qualifier.interchangeable : Interchangeable Qualifier Qualifier.feed :=
  .of_iff Qualifier.same_iff fun a b h =>
    (List.cons.inj (a.feed_eq.trans ((congrArg Value.feed h).trans b.feed_eq.symm))).2

/-- The members of a schema have the order of their names. -/
theorem Schema.ofDeclarations_increasing (type : TypeExpr)
    (declarations : List (String × Option Literal)) :
    NameMap.Increasing (Schema.ofDeclarations type declarations).members :=
  NameMap.ofList_increasing declarations

/-- A qualifier that gives a default is equal to the one that leaves it implicit. -/
theorem Qualifier.beq_insert_default {schema : Schema}
    (hschema : NameMap.Increasing schema.members) {explicit : NameMap Literal} {name : String}
    {default : Literal} (hdefault : schema.default? name = some default)
    (hfree : explicit.get? name = none) :
    ((⟨schema, explicit⟩ : Qualifier) == ⟨schema, NameMap.insert name default explicit⟩) =
      true := by
  have hdeclared : NameMap.get? schema.members name = some (some default) :=
    Option.join_eq_some_iff.1 hdefault
  have hnone : NameMap.get? (explicit.map (Prod.map id some)) name = none := by
    rw [NameMap.get?_map, hfree, Option.map_none]
  have heffective : effective ⟨schema, NameMap.insert name default explicit⟩ =
      effective ⟨schema, explicit⟩ := by
    unfold effective
    rw [← NameMap.insert_map]
    exact hschema.overlay_insert hdeclared hnone
  refine (Qualifier.same_iff _ _).2 ?_
  rw [Qualifier.value_eq, Qualifier.value_eq, heffective]

/-! ## Types and keys -/

theorem TypeExpr.interchangeable : Interchangeable TypeExpr TypeExpr.feed where
  equivalence := { refl := fun _ => BEq.rfl, symm := BEq.symm, trans := BEq.trans }
  feed_eq a b h := by rw [eq_of_beq h]

theorem Key.interchangeable : Interchangeable Key Key.feed where
  equivalence := { refl := fun _ => BEq.rfl, symm := BEq.symm, trans := BEq.trans }
  feed_eq _ _ := Key.feed_congr

/-! ## Results -/

/-- Equality of literals, of arrays among them, of qualifiers, of types and of keys is an
    equivalence that no hash function sees through.  Arrays are equal element by element, scalars
    only if they are the same, and a default counts as much as a member that is given. -/
theorem equality_interchangeable :
    Interchangeable Literal Literal.feed ∧ Interchangeable ArrayLiteral ArrayLiteral.feed ∧
    Interchangeable Qualifier Qualifier.feed ∧ Interchangeable TypeExpr TypeExpr.feed ∧
    Interchangeable Key Key.feed ∧
    (∀ a b : ArrayLiteral, (a == b) = true ↔ a.elements.length = b.elements.length ∧
      ∀ i : Nat, (a.elements[i]? == b.elements[i]?) = true) ∧
    (∀ s t : Scalar, (Literal.scalar s == Literal.scalar t) = true ↔ s = t) ∧
    ∀ (type : TypeExpr) (declarations : List (String × Option Literal))
      (explicit : NameMap Literal) (name : String) (default : Literal),
      (Schema.ofDeclarations type declarations).default? name = some default →
      explicit.get? name = none →
      ((⟨.ofDeclarations type declarations, explicit⟩ : Qualifier) ==
        ⟨.ofDeclarations type declarations, NameMap.insert name default explicit⟩) = true :=
  ⟨Literal.interchangeable, ArrayLiteral.interchangeable, Qualifier.interchangeable,
    TypeExpr.interchangeable, Key.interchangeable, ArrayLiteral.beq_iff, Literal.beq_scalar_iff,
    fun type declarations _ _ _ hdefault hfree =>
      Qualifier.beq_insert_default (Schema.ofDeclarations_increasing type declarations) hdefault
        hfree⟩

/-! ## One array, one default -/

namespace Spelling

def packed : ArrayLiteral := ⟨.packed (.ints [8080, 8443]), rfl⟩

def boxed : ArrayLiteral := ⟨.objects [.scalar (.int 8080), .scalar (.int 8443)], rfl⟩

def ports : Schema := .ofDeclarations (.plain "Ports") [("value", some packed.1)]

/-- The two arrays cannot be told apart, and neither can the qualifiers with and without the
    default. -/
theorem spellings_agree :
    (packed == boxed) = true ∧ packed.feed = boxed.feed ∧
      Qualifier.marker ports == ⟨ports, NameMap.insert "value" packed.1 []⟩ := by
  obtain ⟨-, harrays, -, -, -, -, -, hdefault⟩ := equality_interchangeable
  have hequal : (packed == boxed) = true := by decide +kernel
  exact ⟨hequal, harrays.feed_eq packed boxed hequal, hdefault _ _ [] "value" packed.1 rfl rfl⟩

end Spelling

end Injection
