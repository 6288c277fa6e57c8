/-
  Equal keys are interchangeable.

  Equality of keys is an equivalence, and equal keys have the same hash: what a
  key gives a hash function depends on the value of its qualifier alone, not on
  the way in which the qualifier was written.

  * `Literal.feed_eq`, `Qualifier.feed_eq`: a feed is that of the value;
  * `Key.feed_congr`: equal keys have the same feed.
-/
import Injection.Key.Basic
import Injection.Proofs.Value

namespace Injection

/-! ## Feeds of values -/

namespace Value

mutual

/-- The feed of a value. -/
def feed : Value → Feed
  | .scalar value => value.feed
  | .array elements => .tag 12 :: .length elements.length :: feedAll elements
  | .qualifier type members => .tag 11 :: (type.feed ++ feedMembers members)

/-- The feeds of the elements of an array. -/
def feedAll : List Value → Feed
  | [] => []
  | element :: elements => .tag 1 :: (element.feed ++ feedAll elements)

/-- The feeds of members with their names. -/
def feedMembers : List (String × Option Value) → Feed
  | [] => []
  | (name, none) :: members => .text name :: .tag 0 :: feedMembers members
  | (name, some value) :: members => .text name :: .tag 1 :: (value.feed ++ feedMembers members)

end

/-- The feed of a member without its name. -/
def feedMember : Option Value → Feed
  | none => [.tag 0]
  | some value => .tag 1 :: value.feed

theorem feedAll_scalars (scalars : List Scalar) :
    feedAll (scalars.map .scalar) = scalars.flatMap fun s => .tag 1 :: s.feed := by
  induction scalars with
  | nil => rfl
  | cons scalar scalars ih => simp [feedAll, feed, ih]

theorem feedMembers_eq (members : List (String × Option Value)) :
    feedMembers members = members.flatMap fun member => .text member.1 :: feedMember member.2 := by
  induction members with
  | nil => rfl
  | cons member members ih =>
    obtain ⟨name, _ | value⟩ := member <;> simp [feedMembers, feedMember, ih]

end Value

theorem Literal.length_values (elements : List Literal) :
    (Literal.values elements).length = elements.length := by
  induction elements with
  | nil => rfl
  | cons element elements ih => simp [Literal.values, ih]

/-- The feeds of members by name are those of their values. -/
theorem Value.feedMembers_overlay {declared given : List (String × Feed)}
    {lower upper : List (String × Option Value)}
    (hlower : declared = lower.map (Prod.map id Value.feedMember))
    (hupper : given = upper.map (Prod.map id Value.feedMember)) :
    ((NameMap.overlay declared given).flatMap fun member => .text member.1 :: member.2) =
      Value.feedMembers (NameMap.overlay lower upper) := by
  rw [hlower, hupper, NameMap.overlay_map, Value.feedMembers_eq, List.flatMap_map]
  rfl

mutual

/-- The feed of a literal is that of its value. -/
theorem Literal.feed_eq : ∀ literal : Literal, literal.feed = literal.value.feed
  | .scalar value => by rw [Literal.feed, Literal.value, Value.feed]
  | .packed elements => by
    rw [Literal.feed, Literal.value, Value.feed, Value.feedAll_scalars, List.length_map]
  | .objects elements => by
    rw [Literal.feed, Literal.value, Value.feed, Literal.length_values, Literal.feedAll_eq elements]
  | .qualifier qualifier => by rw [Literal.feed, Literal.value, Qualifier.feed_eq qualifier]

/-- The feed of a qualifier is that of its value. -/
theorem Qualifier.feed_eq : ∀ qualifier : Qualifier,
    .tag 11 :: qualifier.feed = qualifier.value.feed
  | ⟨⟨type, declared⟩, explicit⟩ => by
    rw [Qualifier.feed, Qualifier.value, Value.feed,
      Value.feedMembers_overlay (Schema.feeds_eq declared) (Qualifier.feeds_eq explicit)]

/-- The feed of a list of literals is that of their values. -/
theorem Literal.feedAll_eq : ∀ elements : List Literal,
    Literal.feedAll elements = Value.feedAll (Literal.values elements)
  | [] => by rw [Literal.feedAll, Literal.values, Value.feedAll]
  | element :: elements => by
    rw [Literal.feedAll, Literal.values, Value.feedAll, Literal.feed_eq element,
      Literal.feedAll_eq elements]

/-- The feeds of declared members are those of their values. -/
theorem Schema.feeds_eq : ∀ members : List (String × Option Literal),
    Schema.feeds members = (Schema.values members).map (Prod.map id Value.feedMember)
  | [] => by rw [Schema.feeds, Schema.values, List.map_nil]
  | (name, none) :: members => by
    rw [Schema.feeds, Schema.values, List.map_cons, Schema.feeds_eq members]
    rfl
  | (name, some default) :: members => by
    rw [Schema.feeds, Schema.values, List.map_cons, Schema.feeds_eq members,
      Literal.feed_eq default]
    rfl

/-- The feeds of given members are those of their values. -/
theorem Qualifier.feeds_eq : ∀ members : List (String × Literal),
    Qualifier.feeds members = (Qualifier.values members).map (Prod.map id Value.feedMember)
  | [] => by rw [Qualifier.feeds, Qualifier.values, List.map_nil]
  | (name, given) :: members => by
    rw [Qualifier.feeds, Qualifier.values, List.map_cons, Qualifier.feeds_eq members,
      Literal.feed_eq given]
    rfl

end

/-! ## Keys -/

namespace Key

/-- What two keys have to share to be equal. -/
def identity (key : Key) : TypeExpr × Option Value := (key.type, key.qualifier.map Qualifier.value)

/-- Equal keys are those that share their identity. -/
theorem beq_iff {a b : Key} : (a == b) = true ↔ a.identity = b.identity := by
  show (a.type == b.type && a.qualifier == b.qualifier) = true ↔ _
  rw [Bool.and_eq_true, beq_iff_eq, Option.beq_iff_map Qualifier.same_iff, identity, identity,
    Prod.mk.injEq]

/-- Equality of keys is an equivalence. -/
instance : EquivBEq Key where
  rfl := beq_iff.2 rfl
  symm h := beq_iff.2 (beq_iff.1 h).symm
  trans h h' := beq_iff.2 ((beq_iff.1 h).trans (beq_iff.1 h'))

/-- Equal keys give a hash function the same to read. -/
theorem feed_congr {a b : Key} (h : (a == b) = true) : a.feed = b.feed := by
  obtain ⟨type, qualifier, hordered⟩ := a
  obtain ⟨type', qualifier', hordered'⟩ := b
  obtain ⟨rfl, hvalue⟩ := Prod.mk.inj (beq_iff.1 h)
  cases qualifier with
  | none =>
    cases qualifier' with
    | none => rfl
    | some qualifier' => cases hvalue
  | some qualifier =>
    cases qualifier' with
    | none => cases hvalue
    | some qualifier' =>
      have hfeed := (Qualifier.feed_eq qualifier).trans
        ((congrArg Value.feed (Option.some.inj hvalue)).trans (Qualifier.feed_eq qualifier').symm)
      simp only [feed, (List.cons.inj hfeed).2]

instance : LawfulHashable Key where
  hash_eq a b h := congrArg Feed.digest (feed_congr (a := a) (b := b) h)

end Key

end Injection
