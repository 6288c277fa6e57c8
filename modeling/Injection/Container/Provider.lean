/-
  Providers: the ways to get the instance of one key.
-/
import Injection.Collection.SlotTable
import Injection.Container.Recipe

namespace Injection

/-- The number of the counter of a factory's calls. -/
abbrev CounterId := Nat

/-- The number of the cell in which a singleton keeps its instance. -/
abbrev CellId := Nat

/-- A way to get an instance. -/
inductive Provider where
  | ready (value : Instance)
  /-- The injector with this number, as long as it is alive. -/
  | self (id : InjectorId)
  /-- A recipe for each call, by the number of the call, counted from one. -/
  | factory (calls : CounterId) (recipe : Nat → Recipe Instance)
  /-- One instance, made by the delegate when it is first asked for, and kept in a cell. -/
  | singleton (cell : CellId) (delegate : Provider)

/-- Providers by key, in the order of their registration. -/
abbrev Bindings := SlotTable Key Provider

end Injection
