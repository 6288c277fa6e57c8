/-
  Sets of characters, given as increasing lists of inclusive ranges of code
  points.  The tables of character properties (`isCombining`, `isPrintable`)
  are values of this type.
-/

namespace Injection.Text

/-- A set of characters: inclusive ranges of code points, in increasing order. -/
abbrev CharSet := List (Nat × Nat)

/-- Whether some range of the set holds the character. -/
def CharSet.contains (set : CharSet) (c : Char) : Bool :=
  set.any fun range => range.1 ≤ c.toNat && c.toNat ≤ range.2

end Injection.Text
