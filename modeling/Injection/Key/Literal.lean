/-
  Qualifiers and the literals that stand in them.

  A qualifier is an annotation that tells keys of one type apart.  It has a
  schema (its type, and the members it declares, some with a default) and the
  members given explicitly.  A literal is a scalar, an
  array or again a qualifier.  One thing can be written in several ways: an
  array of numbers packed or as a list of literals, a default left implicit or
  given.

  * `Qualifier.ordered` says that the names of members increase, at every depth,
    as they do in qualifiers that are made of ordered ones;
  * `Literal.same` and `Qualifier.same` see through the way of writing: arrays
    are compared by their elements, and qualifiers by what their members come
    to (`Qualifier.effective`);
  * `Literal.feed` and `Qualifier.feed` give what a hash function reads.
-/
import Injection.Collection.NameMap
import Injection.Key.TypeExpr
import Injection.Text.Quoted
import Injection.Text.ShortestDecimal

namespace Injection

/-! ## Scalars -/

/-- A literal without parts.  Floating-point numbers are kept as their bits, so that a NaN equals
    itself and the two zeros differ. -/
inductive Scalar where
  | bool (b : Bool)
  | byte (n : Int8)
  | char (c : Char)
  | short (n : Int16)
  | int (n : Int32)
  | long (n : Int64)
  | float (bits : UInt32)
  | double (bits : UInt64)
  | text (s : String)
  | type (t : TypeExpr)
  | constant (owner : TypeExpr) (name : String)
  deriving DecidableEq

namespace Scalar

/-- The text of a scalar, with the suffixes that tell the kinds of numbers apart. -/
def render : Scalar → String
  | .bool b => if b then "true" else "false"
  | .byte n => toString n.toInt
  | .char c => "'" ++ c.toString ++ "'"
  | .short n => toString n.toInt
  | .int n => toString n.toInt
  | .long n => toString n.toInt ++ "L"
  | .float bits => Text.single.render bits.toNat ++ "f"
  | .double bits => Text.double.render bits.toNat
  | .text s => Text.quoted s
  | .type t => t.render ++ ".class"
  | .constant owner name => owner.render ++ "." ++ name

/-- The feed of a scalar: its kind, then its content. -/
def feed : Scalar → Feed
  | .bool b => [.tag 0, .word (if b then 1 else 0)]
  | .byte n => [.tag 1, .word n.toUInt8.toUInt64]
  | .char c => [.tag 2, .word c.val.toUInt64]
  | .short n => [.tag 3, .word n.toUInt16.toUInt64]
  | .int n => [.tag 4, .word n.toUInt32.toUInt64]
  | .long n => [.tag 5, .word n.toUInt64]
  | .float bits => [.tag 6, .word bits.toUInt64]
  | .double bits => [.tag 7, .word bits]
  | .text s => [.tag 8, .text s]
  | .type t => .tag 9 :: t.feed
  | .constant owner name => .tag 10 :: (owner.feed ++ [.text name])

end Scalar

/-- An array whose elements are scalars of one kind. -/
inductive PackedArray where
  | bools (elements : List Bool)
  | bytes (elements : List Int8)
  | chars (elements : List Char)
  | shorts (elements : List Int16)
  | ints (elements : List Int32)
  | longs (elements : List Int64)
  | floats (elements : List UInt32)
  | doubles (elements : List UInt64)

/-- The elements of a packed array as scalars. -/
def PackedArray.scalars : PackedArray → List Scalar
  | .bools elements => elements.map .bool
  | .bytes elements => elements.map .byte
  | .chars elements => elements.map .char
  | .shorts elements => elements.map .short
  | .ints elements => elements.map .int
  | .longs elements => elements.map .long
  | .floats elements => elements.map .float
  | .doubles elements => elements.map .double

/-! ## Literals and qualifiers -/

mutual

/-- A literal, as written. -/
inductive Literal where
  | scalar (value : Scalar)
  | packed (elements : PackedArray)
  | objects (elements : List Literal)
  | qualifier (value : Qualifier)

/-- The shape of qualifiers of one type: the members they have, by name, and their defaults. -/
structure Schema where
  type : TypeExpr
  members : List (String × Option Literal)

/-- A qualifier, as written: the members given explicitly, by name. -/
structure Qualifier where
  schema : Schema
  explicit : List (String × Literal)

end

/-! ## Arrays and members -/

/-- The elements of a literal that is an array. -/
def Literal.elements? : Literal → Option (List Literal)
  | .packed elements => some (elements.scalars.map .scalar)
  | .objects elements => some elements
  | _ => none

/-- The text of a literal that is one. -/
def Literal.text? : Literal → Option String
  | .scalar (.text s) => some s
  | _ => none

/-- The members of a qualifier by name: those given, over the declared ones with their defaults. -/
def Qualifier.effective (qualifier : Qualifier) : NameMap (Option Literal) :=
  NameMap.overlay qualifier.schema.members (qualifier.explicit.map (Prod.map id some))

/-! ## Order of members -/

mutual

/-- Whether members stand in the order of their names, in every qualifier of a literal. -/
def Literal.ordered : Literal → Bool
  | .scalar _ | .packed _ => true
  | .objects elements => Literal.allOrdered elements
  | .qualifier qualifier => qualifier.ordered

def Schema.ordered : Schema → Bool
  | ⟨_, declared⟩ => NameMap.Increasing declared && Schema.defaultsOrdered declared

/-- Whether the members of a qualifier stand in the order of their names, the declared ones and
    those given, at every depth. -/
def Qualifier.ordered : Qualifier → Bool
  | ⟨schema, explicit⟩ =>
    schema.ordered && NameMap.Increasing explicit && Qualifier.givenOrdered explicit

def Literal.allOrdered : List Literal → Bool
  | [] => true
  | element :: elements => element.ordered && Literal.allOrdered elements

def Schema.defaultsOrdered : List (String × Option Literal) → Bool
  | [] => true
  | (_, none) :: members => Schema.defaultsOrdered members
  | (_, some default) :: members => default.ordered && Schema.defaultsOrdered members

def Qualifier.givenOrdered : List (String × Literal) → Bool
  | [] => true
  | (_, given) :: members => given.ordered && Qualifier.givenOrdered members

end

/-! ## Equality -/

/-- Whether two packed arrays are equal: arrays of one kind as they are, others by their
    elements. -/
def PackedArray.same : PackedArray → PackedArray → Bool
  | .bools elements, .bools elements' => elements = elements'
  | .bytes elements, .bytes elements' => elements = elements'
  | .chars elements, .chars elements' => elements = elements'
  | .shorts elements, .shorts elements' => elements = elements'
  | .ints elements, .ints elements' => elements = elements'
  | .longs elements, .longs elements' => elements = elements'
  | .floats elements, .floats elements' => elements = elements'
  | .doubles elements, .doubles elements' => elements = elements'
  | elements, elements' => elements.scalars = elements'.scalars

/-- Whether a literal is a given scalar. -/
def Scalar.same (scalar : Scalar) : Literal → Bool
  | .scalar other => scalar = other
  | .packed _ | .objects _ | .qualifier _ => false

/-- Whether scalars are, one by one, the literals of a list. -/
def Scalar.sameAll : List Scalar → List Literal → Bool
  | [], [] => true
  | scalar :: scalars, literal :: literals => scalar.same literal && sameAll scalars literals
  | _, _ => false

/-- Whether members have the names of a list of tests and pass them, one by one. -/
def Qualifier.pass : NameMap (Option Literal → Bool) → NameMap (Option Literal) → Bool
  | [], [] => true
  | (name, test) :: tests, (name', member) :: members =>
    name = name' && test member && pass tests members
  | _, _ => false

mutual

/-- Whether two literals are equal.  Arrays are compared element by element, unless both are
    packed. -/
def Literal.same : Literal → Literal → Bool
  | .scalar scalar, other => scalar.same other
  | .packed elements, .packed elements' => elements.same elements'
  | .packed elements, .objects elements' => Scalar.sameAll elements.scalars elements'
  | .objects elements, .packed elements' =>
    Literal.sameAll elements (elements'.scalars.map .scalar)
  | .objects elements, .objects elements' => Literal.sameAll elements elements'
  | .qualifier qualifier, .qualifier qualifier' => qualifier.same qualifier'
  | _, _ => false

/-- Whether two qualifiers are equal: their types are, and so is what every member comes to. -/
def Qualifier.same : Qualifier → Qualifier → Bool
  | ⟨⟨type, declared⟩, explicit⟩, other =>
    type = other.schema.type &&
      Qualifier.pass (NameMap.overlay (Schema.tests declared) (Qualifier.tests explicit))
        other.effective

def Literal.sameAll : List Literal → List Literal → Bool
  | [], [] => true
  | element :: elements, element' :: elements' =>
    element.same element' && Literal.sameAll elements elements'
  | _, _ => false

/-- What a member of another qualifier has to come to, to be equal to a declared one. -/
def Schema.tests : List (String × Option Literal) → NameMap (Option Literal → Bool)
  | [] => []
  | (name, none) :: members => (name, Option.isNone) :: Schema.tests members
  | (name, some default) :: members => (name, Option.any default.same) :: Schema.tests members

/-- What a member of another qualifier has to come to, to be equal to a given one. -/
def Qualifier.tests : List (String × Literal) → NameMap (Option Literal → Bool)
  | [] => []
  | (name, given) :: members => (name, Option.any given.same) :: Qualifier.tests members

end

instance : BEq Literal := ⟨Literal.same⟩
instance : BEq Qualifier := ⟨Qualifier.same⟩

/-! ## Text -/

/-- Texts in braces, with commas between them. -/
def braced (texts : List String) : String := "\x7b" ++ ", ".intercalate texts ++ "\x7d"

mutual

def Literal.render : Literal → String
  | .scalar value => value.render
  | .packed elements => braced (elements.scalars.map Scalar.render)
  | .objects elements => braced (Literal.renderAll elements)
  | .qualifier qualifier => qualifier.render

/-- The text of a qualifier: its type, and the members given, in the order of their names. -/
def Qualifier.render : Qualifier → String
  | ⟨⟨type, _⟩, []⟩ => "@" ++ type.render
  | ⟨⟨type, _⟩, given :: explicit⟩ =>
    "@" ++ type.render ++ "(" ++ ", ".intercalate (Qualifier.renderMembers (given :: explicit))
      ++ ")"

def Literal.renderAll : List Literal → List String
  | [] => []
  | element :: elements => element.render :: Literal.renderAll elements

def Qualifier.renderMembers : List (String × Literal) → List String
  | [] => []
  | (name, given) :: members => (name ++ "=" ++ given.render) :: Qualifier.renderMembers members

end

instance : ToString Literal := ⟨Literal.render⟩
instance : ToString Qualifier := ⟨Qualifier.render⟩

/-! ## Feed -/

mutual

/-- The feed of a literal.  An array is read element by element, however it is written. -/
def Literal.feed : Literal → Feed
  | .scalar value => value.feed
  | .packed elements =>
    let scalars := elements.scalars
    .tag 12 :: .length scalars.length :: scalars.flatMap fun s => .tag 1 :: s.feed
  | .objects elements => .tag 12 :: .length elements.length :: Literal.feedAll elements
  | .qualifier qualifier => .tag 11 :: qualifier.feed

/-- The feed of a qualifier: its type, and every member with the value it comes to. -/
def Qualifier.feed : Qualifier → Feed
  | ⟨⟨type, declared⟩, explicit⟩ =>
    type.feed ++ ((NameMap.overlay (Schema.feeds declared) (Qualifier.feeds explicit)).flatMap
      fun member => .text member.1 :: member.2)

def Literal.feedAll : List Literal → Feed
  | [] => []
  | element :: elements => .tag 1 :: (element.feed ++ Literal.feedAll elements)

def Schema.feeds : List (String × Option Literal) → List (String × Feed)
  | [] => []
  | (name, none) :: members => (name, [.tag 0]) :: Schema.feeds members
  | (name, some default) :: members => (name, .tag 1 :: default.feed) :: Schema.feeds members

def Qualifier.feeds : List (String × Literal) → List (String × Feed)
  | [] => []
  | (name, given) :: members => (name, .tag 1 :: given.feed) :: Qualifier.feeds members

end

end Injection
