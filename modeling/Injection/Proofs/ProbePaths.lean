/-
  Searches on probe paths end.

  A search looks at slot after slot until it meets a free one, or the entry it
  is for, and has no bound of its own.

  * `Search` and `FreeSearch` are these searches, with the number of slots they
    look at; they have no rule for a slot outside the table, nor for an index
    without an entry;
  * `Regular` says how the slots of a table lie, `WellFormed.regular` that those
    of a well-formed table lie so;
  * `Reached.searches_end`: every table of a program is regular, and searches in
    it look at each slot once at most, also while its slots are filled anew.
-/
import Injection.Proofs.Operation
import Mathlib.Logic.Function.Iterate

namespace Injection

namespace SlotTable

variable {α β : Type}

/-! ## Searches -/

/-- A search for an entry from a slot on: the number of slots that it looks at, and what it
    finds. -/
inductive Search [BEq α] (table : SlotTable α β) (hash : UInt64) (key : α) :
    Nat → Nat → Option Nat → Prop
  | free {slot} : table.slots[slot]? = some none → Search table hash key slot 1 none
  | found {slot index entry} : table.slots[slot]? = some (some index) →
    table.entries[index]? = some entry → (entry.hash == hash && entry.key == key) = true →
    Search table hash key slot 1 (some index)
  | next {slot index entry steps result} : table.slots[slot]? = some (some index) →
    table.entries[index]? = some entry → (entry.hash == hash && entry.key == key) = false →
    Search table hash key (nextSlot table.slots.size slot) steps result →
    Search table hash key slot (steps + 1) result

/-- A search for a free slot from a slot on: the number of slots that it looks at, and the last of
    them. -/
inductive FreeSearch (slots : Array (Option Nat)) : Nat → Nat → Nat → Prop
  | free {slot} : slots[slot]? = some none → FreeSearch slots slot 1 slot
  | next {slot index steps result} : slots[slot]? = some (some index) →
    FreeSearch slots (nextSlot slots.size slot) steps result →
    FreeSearch slots slot (steps + 1) result

/-- A search for a free slot goes on to the first one on its probe path. -/
theorem freeSearch_probe {slots : Array (Option Nat)} (hk : slots.size.isPowerOfTwo)
    {hash : UInt64} {d : Nat} (hfree : slots[probe slots.size hash d]? = some none)
    (hbefore : ∀ e < d, ∃ i, slots[probe slots.size hash e]? = some (some i)) :
    ∀ {steps distance : Nat}, distance + steps = d →
      FreeSearch slots (probe slots.size hash distance) (steps + 1) (probe slots.size hash d)
  | 0, distance, h => by
    obtain rfl : distance = d := h
    exact .free hfree
  | steps + 1, distance, h => by
    obtain ⟨i, hi⟩ := hbefore distance (by omega)
    refine .next hi ?_
    rw [nextSlot_probe hk]
    exact freeSearch_probe hk hfree hbefore (by omega)

/-- With fewer hashes than slots, a search for a free slot ends at one. -/
theorem Indexed.freeSearch {hashes : List UInt64} {slots : Array (Option Nat)}
    (h : Indexed hashes slots) (hk : slots.size.isPowerOfTwo) (hlt : hashes.length < slots.size)
    (hash : UInt64) :
    ∃ steps ≤ slots.size, ∃ slot, FreeSearch slots (homeSlot slots.size hash) steps slot ∧
      freeSlot slots hash = some slot := by
  obtain ⟨d, hd, hslot, hfree, hbefore⟩ := h.exists_freeSlot hk hlt hash
  refine ⟨d + 1, hd, probe slots.size hash d, ?_, hslot⟩
  rw [homeSlot_eq hk]
  exact freeSearch_probe hk hfree hbefore (Nat.zero_add d)

variable [BEq α] {table : SlotTable α β}

/-- A search for an entry finds what the bounded one does, if that has a free slot on its way. -/
theorem search_findFrom (hk : table.slots.size.isPowerOfTwo)
    (hheld : ∀ {slot i : Nat}, table.slots[slot]? = some (some i) → i < table.entries.size)
    {hash : UInt64} (key : α) {d : Nat}
    (hfree : table.slots[probe table.slots.size hash d]? = some none) :
    ∀ {bound distance : Nat}, distance ≤ d → d < distance + bound → ∃ steps ≤ bound,
      Search table hash key (probe table.slots.size hash distance) steps
        (table.findFrom hash key bound (probe table.slots.size hash distance))
  | 0, _, hle, hlt => absurd hle (by omega)
  | bound + 1, distance, hle, hlt => by
    rcases Nat.eq_or_lt_of_le hle with rfl | hle
    · refine ⟨1, by omega, ?_⟩
      rw [findFrom, hfree]
      exact .free hfree
    · have hin := probe_lt (Nat.pos_of_isPowerOfTwo hk) hash distance
      cases hslot : table.slots[probe table.slots.size hash distance] with
      | none =>
        have hnone : table.slots[probe table.slots.size hash distance]? = some none := by
          rw [Array.getElem?_eq_getElem hin, hslot]
        refine ⟨1, by omega, ?_⟩
        rw [findFrom, hnone]
        exact .free hnone
      | some i =>
        have hsome : table.slots[probe table.slots.size hash distance]? = some (some i) := by
          rw [Array.getElem?_eq_getElem hin, hslot]
        have hentry := Array.getElem?_eq_getElem (hheld hsome)
        rw [findFrom]
        simp only [hsome, hentry]
        split
        · next hsame => exact ⟨1, by omega, .found hsome hentry hsame⟩
        · next hother =>
          obtain ⟨steps, hsteps, hrest⟩ := search_findFrom hk hheld key hfree hle
            (show d < distance + 1 + bound by omega)
          rw [← nextSlot_probe hk] at hrest
          exact ⟨steps + 1, by omega, .next hsome hentry (by simpa using hother) hrest⟩

/-! ## The slots of a table -/

theorem iterate_nextSlot {slots : Nat} (hk : slots.isPowerOfTwo) (hash : UInt64) (distance : Nat) :
    (nextSlot slots)^[distance] (homeSlot slots hash) = probe slots hash distance := by
  induction distance with
  | zero => exact homeSlot_eq hk hash
  | succ distance ih => rw [Function.iterate_succ_apply', ih, nextSlot_probe hk]

/-- How the slots of a table lie. -/
structure Regular (table : SlotTable α β) : Prop where
  power : table.slots.size.isPowerOfTwo
  minimum : 8 ≤ table.slots.size
  load : 4 * table.entries.size ≤ 3 * table.slots.size
  /-- Every entry has one slot. -/
  placed : ∀ index < table.entries.size, ∃! slot : Nat,
    table.slots[slot]? = some (some index)
  /-- Every slot in use has an entry. -/
  held : ∀ slot index : Nat, table.slots[slot]? = some (some index) → index < table.entries.size
  /-- No slot is free on the way from the home slot of an entry to its own. -/
  reached : ∀ (index : Nat) (entry : Entry α β), table.entries[index]? = some entry → ∃ distance,
    table.slots[(nextSlot table.slots.size)^[distance] (homeSlot table.slots.size entry.hash)]? =
      some (some index) ∧
    ∀ before < distance, ∃ other,
      table.slots[(nextSlot table.slots.size)^[before] (homeSlot table.slots.size entry.hash)]? =
        some (some other)
  distinct : table.entries.toList.Pairwise fun e e' => (e.key == e'.key) = false

theorem WellFormed.held (h : table.WellFormed) {slot index : Nat}
    (hslot : table.slots[slot]? = some (some index)) : index < table.entries.size := by
  simpa using h.indexed.bound hslot

theorem WellFormed.reached (h : table.WellFormed) {index : Nat} {entry : Entry α β}
    (hentry : table.entries[index]? = some entry) : ∃ distance < table.slots.size,
      table.slots[probe table.slots.size entry.hash distance]? = some (some index) ∧
      ∀ before < distance, ∃ other,
        table.slots[probe table.slots.size entry.hash before]? = some (some other) :=
  h.indexed.reach (by rw [List.getElem?_map, Array.getElem?_toList, hentry, Option.map_some])

theorem WellFormed.regular (h : table.WellFormed) : table.Regular where
  power := h.power
  minimum := h.minimum
  load := h.load
  placed index hindex := by
    obtain ⟨d, -, hat, -⟩ := h.reached (Array.getElem?_eq_getElem hindex)
    exact ⟨_, hat, fun slot hslot => h.indexed.unique hslot hat⟩
  held _ _ := h.held
  reached index entry hentry := by
    obtain ⟨d, -, hat, hbefore⟩ := h.reached hentry
    simp only [iterate_nextSlot h.power]
    exact ⟨d, hat, hbefore⟩
  distinct := h.distinct

/-! ## The searches of a table -/

theorem WellFormed.search (h : table.WellFormed) (hash : UInt64) (key : α) :
    ∃ steps ≤ table.slots.size,
      Search table hash key (homeSlot table.slots.size hash) steps (table.find hash key) := by
  obtain ⟨d, hd, -, hfree, -⟩ := h.indexed.exists_freeSlot h.power h.length_hashes_lt hash
  rw [find, homeSlot_eq h.power]
  exact search_findFrom h.power h.held key hfree (Nat.zero_le d) (by omega)

/-- While fresh slots are filled, a search for the slot of the next entry ends. -/
theorem WellFormed.freeSearch_placed (h : table.WellFormed) (needed : Nat) {index : Nat}
    {entry : Entry α β} (hentry : table.entries[index]? = some entry) :
    let count := grownSlots needed table.slots.size
    let slots := placed (table.entries.take index) count
    slots.size = count ∧ ∃ steps ≤ count, ∃ slot,
      FreeSearch slots (homeSlot count entry.hash) steps slot ∧
        freeSlot slots entry.hash = some slot := by
  obtain ⟨hpower, hle, -⟩ := grownSlots_spec needed h.power
  have hindex := (Array.getElem?_eq_some_iff.1 hentry).1
  have hfew : (table.entries.take index).size < grownSlots needed table.slots.size := by
    have hlt := h.length_hashes_lt
    rw [List.length_map, Array.length_toList] at hlt
    rw [Array.take_eq_extract, Array.size_extract]
    omega
  obtain ⟨hsize, hindexed⟩ := indexed_placed (table.entries.take index) hpower hfew
  refine ⟨hsize, ?_⟩
  have hsearch := hindexed.freeSearch (by rwa [hsize])
    (by rwa [hsize, List.length_map, Array.length_toList]) entry.hash
  rwa [hsize] at hsearch

/-- The slots of a table that a program can get lie so that every search in it ends: it looks at no
    more slots than there are, and never outside the slots or the entries.  This holds for all
    hashes, also for those of the entries when the slots are filled anew. -/
theorem Reached.searches_end [EquivBEq α] {overflow : Overflow} (h : table.Reached overflow) :
    table.Regular ∧
    (∀ hash key, ∃ steps ≤ table.slots.size,
      Search table hash key (homeSlot table.slots.size hash) steps (table.find hash key)) ∧
    (∀ hash, ∃ steps ≤ table.slots.size, ∃ slot,
      FreeSearch table.slots (homeSlot table.slots.size hash) steps slot ∧
        freeSlot table.slots hash = some slot) ∧
    ∀ needed count, grownSlots? overflow needed table.slots.size = some count →
      ∀ (index : Nat) (entry : Entry α β), table.entries[index]? = some entry →
        let slots := placed (table.entries.take index) count
        slots.size = count ∧ ∃ steps ≤ count, ∃ slot,
          FreeSearch slots (homeSlot count entry.hash) steps slot ∧
            freeSlot slots entry.hash = some slot := by
  obtain ⟨hwell, hslots⟩ := h.sound
  refine ⟨hwell.regular, hwell.search,
    hwell.indexed.freeSearch hwell.power hwell.length_hashes_lt, ?_⟩
  intro needed count hcount index entry hentry
  rw [grownSlots?_eq hwell.power hslots, Option.ite_none_left_eq_some] at hcount
  obtain rfl := Option.some.inj hcount.2
  exact hwell.freeSearch_placed (overflow.counted needed) hentry

/-- A table that has grown once, with one home slot for all keys, the last of the first eight.  One
    of the pairs was not accepted. -/
def crowded : SlotTable Nat String :=
  [(1, "a"), (2, "b"), (3, "c"), (1, "d"), (4, "e"), (5, "f"), (6, "g"), (7, "h")].foldl
    (fun table pair => table.insertNew pair.1 pair.2) (SlotTable.withHasher fun _ => 7)

/-- A search for a key that is not there passes all seven entries and ends. -/
theorem Reached.crowded_search_ends :
    crowded.Reached .wraps ∧ crowded.Regular ∧ ∃ steps ≤ 16, Search crowded 7 9 7 steps none := by
  have hreached : crowded.Reached .wraps :=
    .foldl_insertNew _ (.withHasher fun _ => rfl) (by decide)
  obtain ⟨hregular, hsearch, -, -⟩ := Reached.searches_end hreached
  have hsize : crowded.slots.size = 16 := by decide +kernel
  have hnone : crowded.find 7 9 = none := by decide +kernel
  obtain ⟨steps, hsteps, hends⟩ := hsearch 7 9
  refine ⟨hreached, hregular, steps, hsize ▸ hsteps, ?_⟩
  have hhome : homeSlot crowded.slots.size 7 = 7 := by decide +kernel
  rw [← hhome, ← hnone]
  exact hends

end SlotTable

end Injection
