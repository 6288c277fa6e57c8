/-
  Maps from names, kept in the order of the names.

  The order is that of `String`: by code points, which is also the order of
  the UTF-8 bytes.  Every operation keeps the names increasing, so a map lists
  each name once and the list of a map does not depend on how it came about.
-/

namespace Injection

/-- A map from names, as a list of pairs with increasing names. -/
abbrev NameMap (α : Type) := List (String × α)

namespace NameMap

variable {α : Type}

/-- The names of a map increase from pair to pair. -/
def Increasing (map : NameMap α) : Prop := map.Pairwise fun a b => a.1 < b.1

instance (map : NameMap α) : Decidable map.Increasing :=
  inferInstanceAs (Decidable (List.Pairwise _ _))

def empty : NameMap α := []

def get? (map : NameMap α) (name : String) : Option α := List.lookup name map

def contains (map : NameMap α) (name : String) : Bool := (map.get? name).isSome

/-- Gives a name a value, in place of the one it had. -/
def insert (name : String) (value : α) : NameMap α → NameMap α
  | [] => [(name, value)]
  | (other, old) :: rest =>
    if name < other then (name, value) :: (other, old) :: rest
    else if name = other then (name, value) :: rest
    else (other, old) :: insert name value rest

def erase (name : String) (map : NameMap α) : NameMap α := map.filter fun pair => pair.1 != name

/-- A map with all pairs of `upper`, and those of `lower` whose names `upper` leaves free. -/
def overlay (lower upper : NameMap α) : NameMap α :=
  upper.foldl (fun map pair => insert pair.1 pair.2 map) lower

/-- The map of a list of pairs, a later pair replacing an earlier one of the same name. -/
def ofList (pairs : List (String × α)) : NameMap α := overlay empty pairs

end NameMap

end Injection
