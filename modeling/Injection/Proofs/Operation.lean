/-
  Operations on a slot table, one after another.

  A table that a program has created answers every operation as the list of the
  pairs that were accepted so far, in which a pair goes to the end unless an
  equal key stands in it.  Hashes and slots have no part in the list.  An
  operation that asks for more room than words can count does not come to an
  end, and nothing is answered after it.

  * `Operation.onTable?` and `Operation.onPairs` carry out one operation on a
    table and on a list of pairs, `run?` and `run` one operation after another;
  * `Reached.onTable?`: an operation has the same answer on a table as on the
    list of its pairs and leaves the two in step, unless it is `endless`;
  * `Creation.answers_as_pairs`: so it is with all operations from the creation
    of a table on, whatever its hash is.
-/
import Injection.Proofs.AssociationList
import Injection.Proofs.Growth

namespace Injection

namespace SlotTable

variable {α β : Type}

/-! ## Operations and their answers -/

/-- What can be asked of a map. -/
inductive Operation (α β : Type) where
  | insert (key : α) (value : β)
  | get (key : α)
  | contains (key : α)
  | reserve (additional : UInt64)

/-- What is answered: to an insertion, the pair that is handed back, if there is one. -/
inductive Answer (α β : Type) where
  | inserted (refused : Option (α × β))
  | found (value : Option β)
  | contained (present : Bool)
  | reserved

/-- Carries out operations one after another, and collects the answers. -/
def run {σ : Type} (perform : σ → Operation α β → σ × Answer α β) :
    σ → List (Operation α β) → σ × List (Answer α β)
  | state, [] => (state, [])
  | state, operation :: rest =>
    let (next, answer) := perform state operation
    let (final, answers) := run perform next rest
    (final, answer :: answers)

/-- The same with operations that need not come to an end. -/
def run? {σ : Type} (perform : σ → Operation α β → Option (σ × Answer α β)) :
    σ → List (Operation α β) → Option (σ × List (Answer α β))
  | state, [] => some (state, [])
  | state, operation :: rest => do
    let (next, answer) ← perform state operation
    let (final, answers) ← run? perform next rest
    return (final, answer :: answers)

namespace Operation

variable [BEq α]

def onTable? (overflow : Overflow) (table : SlotTable α β) :
    Operation α β → Option (SlotTable α β × Answer α β)
  | .insert key value => do
    let (next, refused) ← table.insert? overflow key value
    return (next, .inserted refused)
  | .get key => some (table, .found (table.get? key))
  | .contains key => some (table, .contained (table.contains key))
  | .reserve additional => do
    let next ← table.reserve? overflow additional
    return (next, .reserved)

/-- The same operation on a list of pairs, which has no slots to reserve. -/
def onPairs (pairs : List (α × β)) : Operation α β → List (α × β) × Answer α β
  | .insert key value =>
    match pairs.lookup key with
    | some _ => (pairs, .inserted (some (key, value)))
    | none => (pairs ++ [(key, value)], .inserted none)
  | .get key => (pairs, .found (pairs.lookup key))
  | .contains key => (pairs, .contained (pairs.lookup key).isSome)
  | .reserve _ => (pairs, .reserved)

/-- Whether an operation asks for more room than words can count, with the given pairs in the
    table. -/
def endless (overflow : Overflow) (pairs : List (α × β)) : Operation α β → Bool
  | .insert key _ => (pairs.lookup key).isNone && overflow.exceeds (pairs.length + 1)
  | .get _ => false
  | .contains _ => false
  | .reserve additional => overflow.exceeds (pairs.length + additional.toNat)

end Operation

/-- Whether one of some operations does so, with the given pairs in the table before them. -/
def stall [BEq α] (overflow : Overflow) : List (α × β) → List (Operation α β) → Bool
  | _, [] => false
  | pairs, operation :: rest =>
    operation.endless overflow pairs || stall overflow (operation.onPairs pairs).1 rest

variable [BEq α] {overflow : Overflow} {table : SlotTable α β}

/-! ## One operation -/

/-- An insertion in numbers is the one into the list of pairs. -/
theorem WellFormed.insert_onPairs [EquivBEq α] (h : table.WellFormed) (key : α) (value : β) :
    (table.insert key value).1.toList = ((Operation.insert key value).onPairs table.toList).1 ∧
      .inserted (table.insert key value).2 =
        ((Operation.insert key value).onPairs table.toList).2 := by
  have hcontains := h.contains_eq_lookup key
  simp only [Operation.onPairs, h.insert_eq]
  cases hfound : table.toList.lookup key with
  | some found =>
    rw [hfound, Option.isSome_some] at hcontains
    rw [if_pos hcontains]
    exact ⟨rfl, rfl⟩
  | none =>
    rw [hfound, Option.isSome_none] at hcontains
    rw [if_neg (by simp [hcontains])]
    exact ⟨(h.push value hcontains).2, rfl⟩

/-- An operation on a table is the operation on the list of its pairs, unless it does not come to an
    end. -/
theorem Reached.onTable? [EquivBEq α] (h : table.Reached overflow) (operation : Operation α β) :
    if operation.endless overflow table.toList then operation.onTable? overflow table = none
    else ∃ next, next.Reached overflow ∧ next.toList = (operation.onPairs table.toList).1 ∧
      operation.onTable? overflow table = some (next, (operation.onPairs table.toList).2) := by
  obtain ⟨hwell, hslots⟩ := h.sound
  have hsize : table.entries.size = table.toList.length := by simp [toList]
  cases operation with
  | insert key value =>
    have hinsert := hwell.insert?_eq hslots overflow key value
    rw [hwell.contains_eq_lookup, Option.not_isSome, hsize] at hinsert
    obtain ⟨hpairs, hanswer⟩ := hwell.insert_onPairs key value
    simp only [Operation.endless, Operation.onTable?, hinsert]
    split
    · rfl
    · next hfits =>
      rw [if_neg hfits] at hinsert
      exact ⟨_, h.insert hinsert, hpairs, by rw [← hanswer]; rfl⟩
  | get key =>
    refine ⟨table, h, rfl, ?_⟩
    rw [Operation.onTable?, Operation.onPairs, hwell.get?_eq_lookup]
  | contains key =>
    refine ⟨table, h, rfl, ?_⟩
    rw [Operation.onTable?, Operation.onPairs, hwell.contains_eq_lookup]
  | reserve additional =>
    have hreserve := reserve?_eq overflow hwell.power hslots additional
    simp only [hsize] at hreserve
    simp only [Operation.endless, Operation.onTable?, hreserve]
    split
    · rfl
    · next hfits =>
      rw [if_neg hfits] at hreserve
      exact ⟨_, h.reserve hreserve, toList_widen _, rfl⟩

/-! ## All operations -/

/-- Operations on a table are the operations on the list of its pairs, unless one of them does not
    come to an end. -/
theorem Reached.run? [EquivBEq α] :
    ∀ {table : SlotTable α β} (operations : List (Operation α β)), table.Reached overflow →
      if stall overflow table.toList operations then
        SlotTable.run? (Operation.onTable? overflow) table operations = none
      else ∃ final, final.Reached overflow ∧
        final.toList = (run Operation.onPairs table.toList operations).1 ∧
        SlotTable.run? (Operation.onTable? overflow) table operations =
          some (final, (run Operation.onPairs table.toList operations).2)
  | table, [], h => ⟨table, h, rfl, rfl⟩
  | table, operation :: rest, h => by
    have hfirst := h.onTable? operation
    rw [stall, SlotTable.run?]
    split at hfirst
    · next hendless => rw [hendless, hfirst]; rfl
    · next hends =>
      obtain ⟨next, hnext, hpairs, hfirst⟩ := hfirst
      have hrest := Reached.run? rest hnext
      rw [hpairs] at hrest
      rw [Bool.not_eq_true] at hends
      simp only [hends, hfirst, Bool.false_or, Option.bind_eq_bind, Option.bind_some]
      split at hrest
      · next hstall => rw [if_pos hstall, hrest]; rfl
      · next hpass =>
        obtain ⟨final, hfinal, hlast, hrest⟩ := hrest
        rw [if_neg hpass, hrest]
        exact ⟨final, hfinal, hlast, rfl⟩

/-! ## From the creation on -/

/-- A slot is free, at which every search that finds nothing ends. -/
theorem WellFormed.exists_free (h : table.WellFormed) : none ∈ table.slots := by
  obtain ⟨d, -, -, hfree, -⟩ := h.indexed.exists_freeSlot h.power h.length_hashes_lt 0
  exact Array.mem_of_getElem? hfree

/-- How a program creates a table: with a hash of its own that equal keys share, or with room for
    some entries. -/
inductive Creation (α : Type) [BEq α] where
  | withHasher (hasher : α → UInt64) (hcongr : ∀ {a b : α}, (a == b) = true → hasher a = hasher b)
  | withCapacity [Hashable α] [LawfulHashable α] (capacity : UInt64)

namespace Creation

def table? (overflow : Overflow) : Creation α → Option (SlotTable α β)
  | withHasher hasher _ => some (SlotTable.withHasher hasher)
  | @withCapacity _ _ _ _ capacity => withCapacity? overflow capacity

/-- The number of entries for which a table is created. -/
def capacity : Creation α → Nat
  | withHasher _ _ => 0
  | @withCapacity _ _ _ _ capacity => capacity.toNat

/-- The operations on a table that is created first. -/
def run? (overflow : Overflow) (creation : Creation α) (operations : List (Operation α β)) :
    Option (SlotTable α β × List (Answer α β)) := do
  let table ← creation.table? overflow
  SlotTable.run? (Operation.onTable? overflow) table operations

theorem table?_spec (overflow : Overflow) (creation : Creation α) :
    if overflow.exceeds creation.capacity then
      (creation.table? overflow : Option (SlotTable α β)) = none
    else ∃ table : SlotTable α β, creation.table? overflow = some table ∧
      table.Reached overflow ∧ table.toList = [] := by
  cases creation with
  | withHasher hasher hcongr =>
    rw [capacity, Overflow.exceeds_eq_false (Nat.zero_le _)]
    exact ⟨_, rfl, .withHasher hcongr, rfl⟩
  | withCapacity amount =>
    rw [table?, capacity, withCapacity?_eq]
    split
    · rfl
    · next hfits =>
      exact ⟨_, rfl, .withCapacity (by rw [withCapacity?_eq, if_neg hfits]), toList_widen _⟩

theorem run?_spec [EquivBEq α] (overflow : Overflow) (creation : Creation α)
    (operations : List (Operation α β)) :
    if overflow.exceeds creation.capacity || stall overflow [] operations then
      creation.run? overflow operations = none
    else ∃ final, final.Reached overflow ∧ final.toList = (run Operation.onPairs [] operations).1 ∧
      creation.run? overflow operations =
        some (final, (run Operation.onPairs [] operations).2) := by
  have hcreated := creation.table?_spec (β := β) overflow
  rw [run?]
  split at hcreated
  · next hexceeds =>
    rw [hexceeds, hcreated]
    rfl
  · next hfits =>
    obtain ⟨table, hcreated, hreached, hnil⟩ := hcreated
    have hrun := hreached.run? operations
    rw [hnil] at hrun
    rw [Bool.not_eq_true] at hfits
    rw [hfits, hcreated, Bool.false_or]
    exact hrun

/-- Operations on keys that are all at home in one slot, the last of eight: the second entry goes
    around the end of the table and the seventh makes it grow. -/
def colliding : List (Operation Nat Nat) :=
  [.insert 1 10, .insert 2 20, .insert 3 30, .insert 1 11, .insert 4 40, .insert 5 50,
    .insert 6 60, .insert 7 70, .get 2, .reserve 20, .get 1, .contains 9]

end Creation

end SlotTable

end Injection
