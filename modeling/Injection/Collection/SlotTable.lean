/-
  Insert-once maps in insertion order, with a table of slots for fast lookup.

  Entries stand in the order in which they were accepted and are never removed
  or replaced.  A table of slots, whose size is a power of two, holds the index
  of every entry: on the probe path of a hash, which starts at the hash masked
  by the table's size and goes on slot by slot, around the end of the table, a
  search ends at the first free slot.  At most three slots out of four are in
  use, so a free slot is always met.

  * `SlotTable.find` and `SlotTable.freeSlot` follow a probe path;
  * `SlotTable.insert` refuses a pair whose key is present, and doubles the table
    of slots when there is no room for one more;
  * `SlotTable.reserve?` makes room for any number of entries.  It counts in
    words of 64 bits, and a number that does not fit may keep it from ever
    coming to an end; so it is with `SlotTable.withCapacity?` and
    `SlotTable.insert?`.
-/

namespace Injection

/-- A pair of a slot table with the hash of its key. -/
structure SlotTable.Entry (α β : Type) where
  hash : UInt64
  key : α
  value : β

/-- An insert-once map: the entries in the order of their insertion, and the slots. -/
structure SlotTable (α β : Type) where
  hasher : α → UInt64
  entries : Array (SlotTable.Entry α β)
  slots : Array (Option Nat)

namespace SlotTable

variable {α β : Type}

/-- The number of slots of a table to which nothing was added. -/
def minSlots : Nat := 8

def withHasher (hasher : α → UInt64) : SlotTable α β := ⟨hasher, #[], .replicate minSlots none⟩

/-- A table without entries, for keys that have a hash. -/
def empty [Hashable α] : SlotTable α β := withHasher hash

def size (table : SlotTable α β) : Nat := table.entries.size

def isEmpty (table : SlotTable α β) : Bool := table.entries.isEmpty

def keys (table : SlotTable α β) : List α := table.entries.toList.map (·.key)

def values (table : SlotTable α β) : List β := table.entries.toList.map (·.value)

def toList (table : SlotTable α β) : List (α × β) :=
  table.entries.toList.map fun e => (e.key, e.value)

/-! ## Probe paths -/

/-- The slot at which the probe path of a hash starts, in a table of `slots` slots. -/
def homeSlot (slots : Nat) (hash : UInt64) : Nat := hash.toNat &&& (slots - 1)

/-- The slot after `slot` on a probe path, in a table of `slots` slots. -/
def nextSlot (slots slot : Nat) : Nat := (slot + 1) &&& (slots - 1)

/-- The index of the entry with the given hash and key, searched from `slot` over at most `steps`
    slots. -/
def findFrom [BEq α] (table : SlotTable α β) (hash : UInt64) (key : α) : Nat → Nat → Option Nat
  | 0, _ => none
  | steps + 1, slot =>
    match table.slots[slot]? with
    | some (some index) =>
      match table.entries[index]? with
      | some entry =>
        if entry.hash == hash && entry.key == key then some index
        else findFrom table hash key steps (nextSlot table.slots.size slot)
      | none => none
    | _ => none

/-- The index of the entry with the given hash and key. -/
def find [BEq α] (table : SlotTable α β) (hash : UInt64) (key : α) : Option Nat :=
  table.findFrom hash key table.slots.size (homeSlot table.slots.size hash)

/-- The first free slot, searched from `slot` over at most `steps` slots. -/
def freeSlotFrom (slots : Array (Option Nat)) : Nat → Nat → Option Nat
  | 0, _ => none
  | steps + 1, slot =>
    match slots[slot]? with
    | some (some _) => freeSlotFrom slots steps (nextSlot slots.size slot)
    | some none => some slot
    | none => none

/-- The first free slot on the probe path of a hash. -/
def freeSlot (slots : Array (Option Nat)) (hash : UInt64) : Option Nat :=
  freeSlotFrom slots slots.size (homeSlot slots.size hash)

/-- Puts an entry's index into the first free slot of its probe path. -/
def occupy (slots : Array (Option Nat)) (hash : UInt64) (index : Nat) : Array (Option Nat) :=
  match freeSlot slots hash with
  | some slot => slots.setIfInBounds slot (some index)
  | none => slots

/-! ## Growth -/

/-- Whether `slots` slots are enough for `needed` entries: three out of four may be in use. -/
def haveRoom (slots needed : Nat) : Bool := needed * 4 ≤ slots * 3

/-- Doubles `slots` until it is enough for `needed` entries. -/
def grownSlots (needed slots : Nat) : Nat :=
  if h : slots * 3 < needed * 4 ∧ 0 < slots then grownSlots needed (slots * 2) else slots
termination_by needed * 4 - slots * 3

/-- The slots of the given entries in a fresh table of `count` slots. -/
def placed (entries : Array (Entry α β)) (count : Nat) : Array (Option Nat) :=
  (entries.foldl (fun (state : Array (Option Nat) × Nat) entry =>
    (occupy state.1 entry.hash state.2, state.2 + 1)) (.replicate count none, 0)).1

/-- Places all entries anew, in `count` slots. -/
def rehash (table : SlotTable α β) (count : Nat) : SlotTable α β :=
  { table with slots := placed table.entries count }

/-- Makes room for `needed` entries in all. -/
def widen (table : SlotTable α β) (needed : Nat) : SlotTable α β :=
  if haveRoom table.slots.size needed then table
  else table.rehash (grownSlots needed table.slots.size)

/-! ## Growth in words -/

/-- What becomes of a number that does not fit into a word: its lowest 64 bits are kept, or the
    program stops. -/
inductive Overflow where
  | wraps
  | stops
  deriving DecidableEq

/-- The word for a number. -/
def Overflow.word : Overflow → Nat → Option Nat
  | .wraps, n => some (n % UInt64.size)
  | .stops, n => if n < UInt64.size then some n else none

def haveRoom? (overflow : Overflow) (slots needed : Nat) : Option Bool := do
  let inUse ← overflow.word (needed * 4)
  let usable ← overflow.word (slots * 3)
  return decide (inUse ≤ usable)

/-- Doubles `slots` until it is enough for `needed` entries, if it is in so many rounds. -/
def grownSlotsIn? (overflow : Overflow) (needed : Nat) : Nat → Nat → Option Nat
  | 0, _ => none
  | rounds + 1, slots => do
    if ← haveRoom? overflow slots needed then return slots
    else
      let doubled ← overflow.word (slots * 2)
      grownSlotsIn? overflow needed rounds doubled

/-- Doubles `slots` until it is enough for `needed` entries.  A word that is doubled 64 times is
    zero from then on: what is not enough by the next round never is, and the doubling does not
    come to an end. -/
def grownSlots? (overflow : Overflow) (needed slots : Nat) : Option Nat :=
  grownSlotsIn? overflow needed 65 slots

/-- Makes room for `additional` more entries. -/
def reserve? (overflow : Overflow) (table : SlotTable α β) (additional : UInt64) :
    Option (SlotTable α β) := do
  let needed ← overflow.word (table.entries.size + additional.toNat)
  if ← haveRoom? overflow table.slots.size needed then return table
  else return table.rehash (← grownSlots? overflow needed table.slots.size)

/-- A table without entries that has room for `capacity` of them. -/
def withCapacity? [Hashable α] (overflow : Overflow) (capacity : UInt64) :
    Option (SlotTable α β) :=
  reserve? overflow empty capacity

/-! ## Lookup and insertion -/

def get? [BEq α] (table : SlotTable α β) (key : α) : Option β := do
  let index ← table.find (table.hasher key) key
  (·.value) <$> table.entries[index]?

def contains [BEq α] (table : SlotTable α β) (key : α) : Bool := (table.get? key).isSome

/-- Adds an entry behind all others, for which there is room. -/
def append (table : SlotTable α β) (hash : UInt64) (key : α) (value : β) : SlotTable α β :=
  let ⟨hasher, entries, slots⟩ := table
  let index := entries.size
  ⟨hasher, entries.push ⟨hash, key, value⟩, occupy slots hash index⟩

/-- Adds an entry for a key that has none. -/
def push (table : SlotTable α β) (hash : UInt64) (key : α) (value : β) : SlotTable α β :=
  (table.widen (table.entries.size + 1)).append hash key value

/-- Adds a pair unless its key is present, and hands back the pair if it is. -/
def insert [BEq α] (table : SlotTable α β) (key : α) (value : β) :
    SlotTable α β × Option (α × β) :=
  let hash := table.hasher key
  match table.find hash key with
  | some _ => (table, some (key, value))
  | none => (table.push hash key value, none)

/-- The same with the room counted in words, as `reserve?` makes it. -/
def insert? [BEq α] (overflow : Overflow) (table : SlotTable α β) (key : α) (value : β) :
    Option (SlotTable α β × Option (α × β)) :=
  let hash := table.hasher key
  match table.find hash key with
  | some _ => some (table, some (key, value))
  | none => do
    let roomy ← table.reserve? overflow 1
    return (roomy.append hash key value, none)

/-- The table with a pair added unless its key is present. -/
def insertNew [BEq α] (table : SlotTable α β) (key : α) (value : β) : SlotTable α β :=
  (table.insert key value).1

/-- The text of a map, its pairs in insertion order. -/
def describe (table : SlotTable α β) (key : α → String) (value : β → String) : String :=
  "\x7b" ++ ", ".intercalate (table.toList.map fun pair => key pair.1 ++ ": " ++ value pair.2)
    ++ "\x7d"

end SlotTable

end Injection
