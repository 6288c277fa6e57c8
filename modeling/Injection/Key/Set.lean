/-
  Sets of keys.
-/
import Injection.Collection.SlotTable
import Injection.Key.Basic

namespace Injection

/-- A set of keys, in the order in which they were added. -/
abbrev KeySet := SlotTable Key Unit

namespace KeySet

def add (set : KeySet) (key : Key) : KeySet := SlotTable.insertNew set key ()

end KeySet

end Injection
