/-
  Well-formed slot tables answer as lists of pairs.

  The slots of a well-formed table are a power of two in number and three out
  of four of them are in use at most.  They hold the place of every entry once,
  and every entry stands on its own probe path with no free slot before it.

  * `Indexed` states this of a list of hashes and the slots, `Indexed.occupy`
    puts one more hash into the slots;
  * `WellFormed.get?_eq_some_iff`: the value of a key is that of the pair with
    an equal key;
  * `WellFormed.insert_eq`: an insertion refuses a key that is present and
    appends every other pair.
-/
import Injection.Collection.SlotTable

namespace Injection

namespace SlotTable

/-! ## Probe paths -/

/-- The slot at a distance from the home slot of a hash. -/
def probe (slots : Nat) (hash : UInt64) (distance : Nat) : Nat :=
  (hash.toNat + distance) % slots

theorem probe_lt {slots : Nat} (h : 0 < slots) (hash : UInt64) (distance : Nat) :
    probe slots hash distance < slots :=
  Nat.mod_lt _ h

theorem homeSlot_eq {slots : Nat} (h : slots.isPowerOfTwo) (hash : UInt64) :
    homeSlot slots hash = probe slots hash 0 := by
  obtain ⟨k, hk⟩ := h
  rw [homeSlot, probe, hk, Nat.and_two_pow_sub_one_eq_mod, Nat.add_zero]

theorem nextSlot_probe {slots : Nat} (h : slots.isPowerOfTwo) (hash : UInt64)
    (distance : Nat) :
    nextSlot slots (probe slots hash distance) = probe slots hash (distance + 1) := by
  obtain ⟨k, hk⟩ := h
  rw [nextSlot, probe, probe, hk, Nat.and_two_pow_sub_one_eq_mod, Nat.mod_add_mod, Nat.add_assoc]

/-- A probe path meets every slot. -/
theorem exists_probe_eq {slots slot : Nat} (h : slot < slots) (hash : UInt64) :
    ∃ distance < slots, probe slots hash distance = slot := by
  have hpos : 0 < slots := by omega
  have hhome : hash.toNat % slots < slots := Nat.mod_lt _ hpos
  have hprobe : ∀ distance, probe slots hash distance = (hash.toNat % slots + distance) % slots :=
    fun distance => by rw [probe, Nat.mod_add_mod]
  by_cases hle : hash.toNat % slots ≤ slot
  · refine ⟨slot - hash.toNat % slots, by omega, ?_⟩
    rw [hprobe, show hash.toNat % slots + (slot - hash.toNat % slots) = slot by omega,
      Nat.mod_eq_of_lt h]
  · refine ⟨slot + slots - hash.toNat % slots, by omega, ?_⟩
    rw [hprobe, show hash.toNat % slots + (slot + slots - hash.toNat % slots) = slot + slots by
      omega, Nat.add_mod_right, Nat.mod_eq_of_lt h]

/-! ## Free slots -/

/-- A search for a free slot ends at the first one on its probe path. -/
theorem freeSlotFrom_eq_some {slots : Array (Option Nat)}
    (hk : slots.size.isPowerOfTwo) {hash : UInt64} {slot : Nat} :
    ∀ {steps distance : Nat},
      freeSlotFrom slots steps (probe slots.size hash distance) = some slot →
        ∃ d < distance + steps, slot = probe slots.size hash d ∧ slots[slot]? = some none ∧
          ∀ e, distance ≤ e → e < d → ∃ i, slots[probe slots.size hash e]? = some (some i)
  | 0, _, h => by simp [freeSlotFrom] at h
  | steps + 1, distance, h => by
    rw [freeSlotFrom] at h
    split at h
    · next i hi =>
      rw [nextSlot_probe hk] at h
      obtain ⟨d, hd, hslot, hfree, hbefore⟩ := freeSlotFrom_eq_some hk h
      refine ⟨d, by omega, hslot, hfree, fun e he hed => ?_⟩
      rcases Nat.eq_or_lt_of_le he with rfl | he
      · exact ⟨i, hi⟩
      · exact hbefore e he hed
    · next hfree =>
      obtain rfl := Option.some.inj h
      exact ⟨distance, by omega, rfl, hfree, fun e he hed => absurd he (by omega)⟩
    · simp at h

/-- A search that finds no free slot has met slots in use only. -/
theorem freeSlotFrom_eq_none {slots : Array (Option Nat)}
    (hk : slots.size.isPowerOfTwo) {hash : UInt64} :
    ∀ {steps distance : Nat},
      freeSlotFrom slots steps (probe slots.size hash distance) = none →
        ∀ e, distance ≤ e → e < distance + steps →
          ∃ i, slots[probe slots.size hash e]? = some (some i)
  | 0, _, _ => fun e he hed => absurd he (by omega)
  | steps + 1, distance, h => fun e he hed => by
    rw [freeSlotFrom] at h
    split at h
    · next i hi =>
      rcases Nat.eq_or_lt_of_le he with rfl | he
      · exact ⟨i, hi⟩
      · rw [nextSlot_probe hk] at h
        exact freeSlotFrom_eq_none hk h e he (by omega)
    · simp at h
    · next hout =>
      have hpos : 0 < slots.size := Nat.pos_of_isPowerOfTwo hk
      have := Array.getElem?_eq_none_iff.1 hout
      exact absurd (probe_lt hpos hash distance) (by omega)

/-! ## Slots that hold a list of hashes -/

/-- The slots hold the place of every hash of a list once, on the probe path of that hash and with
    no free slot before it. -/
structure Indexed (hashes : List UInt64) (slots : Array (Option Nat)) : Prop where
  bound : ∀ {slot i : Nat}, slots[slot]? = some (some i) → i < hashes.length
  unique : ∀ {slot slot' i : Nat}, slots[slot]? = some (some i) → slots[slot']? = some (some i) →
    slot = slot'
  reach : ∀ {i : Nat} {hash : UInt64}, hashes[i]? = some hash → ∃ d < slots.size,
    slots[probe slots.size hash d]? = some (some i) ∧
      ∀ e < d, ∃ j, slots[probe slots.size hash e]? = some (some j)
  used : slots.toList.countP Option.isSome = hashes.length

theorem size_occupy (slots : Array (Option Nat)) (hash : UInt64) (index : Nat) :
    (occupy slots hash index).size = slots.size := by
  unfold occupy
  split <;> simp

namespace Indexed

variable {hashes : List UInt64} {slots : Array (Option Nat)}

theorem nil (count : Nat) : Indexed [] (.replicate count none) where
  bound h := by simp [Array.getElem?_replicate] at h
  unique h := by simp [Array.getElem?_replicate] at h
  reach h := by simp at h
  used := by simp [List.countP_replicate]

/-- With fewer hashes than slots there is a free slot, the first one on each probe path. -/
theorem exists_freeSlot (h : Indexed hashes slots) (hk : slots.size.isPowerOfTwo)
    (hlt : hashes.length < slots.size) (hash : UInt64) :
    ∃ d < slots.size, freeSlot slots hash = some (probe slots.size hash d) ∧
      slots[probe slots.size hash d]? = some none ∧
        ∀ e < d, ∃ i, slots[probe slots.size hash e]? = some (some i) := by
  cases hfree : freeSlot slots hash with
  | some slot =>
    rw [freeSlot, homeSlot_eq hk] at hfree
    obtain ⟨d, hd, rfl, hnone, hbefore⟩ := freeSlotFrom_eq_some hk hfree
    exact ⟨d, by omega, rfl, hnone, fun e he => hbefore e (Nat.zero_le e) he⟩
  | none =>
    rw [freeSlot, homeSlot_eq hk] at hfree
    have hall : ∀ o ∈ slots.toList, Option.isSome o = true := by
      intro o ho
      obtain ⟨slot, hslot, rfl⟩ := List.getElem_of_mem ho
      obtain ⟨d, hd, rfl⟩ := exists_probe_eq (by simpa using hslot) hash
      obtain ⟨i, hi⟩ := freeSlotFrom_eq_none hk hfree d (Nat.zero_le d) (by omega)
      have := Array.getElem?_eq_some_iff.1 hi
      simp [this.2]
    have hused := h.used
    rw [List.countP_eq_length.2 hall, Array.length_toList] at hused
    omega

/-- One more hash takes the first free slot of its probe path. -/
theorem occupy (h : Indexed hashes slots) (hk : slots.size.isPowerOfTwo)
    (hlt : hashes.length < slots.size) (hash : UInt64) :
    Indexed (hashes ++ [hash]) (SlotTable.occupy slots hash hashes.length) := by
  obtain ⟨d, hd, hslot, hfree, hbefore⟩ := h.exists_freeSlot hk hlt hash
  have hin : probe slots.size hash d < slots.size := probe_lt (by omega) hash d
  have hget : ∀ t : Nat, (slots.setIfInBounds (probe slots.size hash d) (some hashes.length))[t]? =
      if probe slots.size hash d = t then some (some hashes.length) else slots[t]? := by
    intro t
    rw [Array.getElem?_setIfInBounds]
    split <;> simp_all
  -- a slot in use stays as it is, since the slot that changes is free
  have hkeep : ∀ {t i : Nat}, slots[t]? = some (some i) →
      (slots.setIfInBounds (probe slots.size hash d) (some hashes.length))[t]? =
        some (some i) := by
    intro t i ht
    rw [hget, if_neg (by rintro rfl; rw [hfree] at ht; simp at ht), ht]
  simp only [SlotTable.occupy, hslot]
  refine ⟨fun {t i} ht => ?_, fun {t t' i} ht ht' => ?_, fun {i hash'} hi => ?_, ?_⟩
  · rw [hget] at ht
    simp only [List.length_append, List.length_singleton]
    split at ht
    · simp at ht; omega
    · have := h.bound ht; omega
  · rw [hget] at ht ht'
    split at ht <;> split at ht'
    · next h₁ h₂ => rw [← h₁, h₂]
    · simp at ht; exact absurd (h.bound ht') (by omega)
    · simp at ht'; exact absurd (h.bound ht) (by omega)
    · exact h.unique ht ht'
  · simp only [Array.size_setIfInBounds]
    rcases Nat.lt_trichotomy i hashes.length with hi' | rfl | hi'
    · rw [List.getElem?_append_left hi'] at hi
      obtain ⟨d', hd', hat, hpath⟩ := h.reach hi
      exact ⟨d', hd', hkeep hat, fun e he => (hpath e he).imp fun j => hkeep⟩
    · rw [List.getElem?_concat_length, Option.some.injEq] at hi
      subst hi
      refine ⟨d, hd, by simp [hget], fun e he => (hbefore e he).imp fun j => hkeep⟩
    · rw [List.getElem?_eq_none (by simp; omega)] at hi
      simp at hi
  · have hnone : slots[probe slots.size hash d] = none := by
      simpa [Array.getElem?_eq_getElem hin] using hfree
    rw [Array.toList_setIfInBounds, List.countP_set (by simpa using hin)]
    simp [hnone, h.used]

end Indexed

/-! ## Growth -/

/-- Doubling goes on until there is room, and keeps a power of two. -/
theorem grownSlots_spec (needed : Nat) {slots : Nat} (h : slots.isPowerOfTwo) :
    (grownSlots needed slots).isPowerOfTwo ∧ slots ≤ grownSlots needed slots ∧
      needed * 4 ≤ grownSlots needed slots * 3 := by
  fun_induction grownSlots needed slots with
  | case1 slots hlt ih =>
    obtain ⟨hpower, hle, hroom⟩ := ih (Nat.isPowerOfTwo_mul_two_of_isPowerOfTwo h)
    exact ⟨hpower, by omega, hroom⟩
  | case2 slots hge =>
    have hpos := Nat.pos_of_isPowerOfTwo h
    exact ⟨h, Nat.le_refl slots, by omega⟩

variable {α β : Type}

/-- The places of the entries, found by their hashes in fresh slots. -/
theorem indexed_placed (entries : Array (Entry α β)) {count : Nat}
    (hk : count.isPowerOfTwo) (hlt : entries.size < count) :
    (placed entries count).size = count ∧
      Indexed (entries.toList.map (·.hash)) (placed entries count) := by
  -- the walk has placed the entries `before`, and `rest` is what is left of them
  have hfold : ∀ (rest before : List (Entry α β)) (slots : Array (Option Nat)),
      slots.size = count → Indexed (before.map (·.hash)) slots →
      before.length + rest.length < count →
      let final := rest.foldl (fun (state : Array (Option Nat) × Nat) entry =>
        (occupy state.1 entry.hash state.2, state.2 + 1)) (slots, before.length)
      final.1.size = count ∧ Indexed ((before ++ rest).map (·.hash)) final.1 := by
    intro rest
    induction rest with
    | nil => intro before slots hs hi _; simpa using ⟨hs, hi⟩
    | cons entry rest ih =>
      intro before slots hs hi hroom
      simp only [List.length_cons] at hroom
      have hnext := hi.occupy (hs ▸ hk) (by rw [List.length_map]; omega) entry.hash
      rw [List.length_map] at hnext
      have := ih (before ++ [entry]) (occupy slots entry.hash before.length)
        (by rw [size_occupy, hs]) (by simpa using hnext) (by simp; omega)
      simpa using this
  have := hfold entries.toList [] (.replicate count none) (by simp) (by simpa using .nil count)
    (by simpa using hlt)
  simpa [placed, Array.foldl_toList] using this

/-! ## Well-formed tables -/

variable [BEq α]

/-- A table that came about by insertions, with a hash that equal keys share. -/
structure WellFormed (table : SlotTable α β) : Prop where
  hash_congr : ∀ {a b : α}, (a == b) = true → table.hasher a = table.hasher b
  power : table.slots.size.isPowerOfTwo
  minimum : minSlots ≤ table.slots.size
  load : 4 * table.entries.size ≤ 3 * table.slots.size
  indexed : Indexed (table.entries.toList.map (·.hash)) table.slots
  hash_eq : ∀ entry ∈ table.entries.toList, entry.hash = table.hasher entry.key
  distinct : table.entries.toList.Pairwise fun e e' => (e.key == e'.key) = false

namespace WellFormed

theorem withHasher {hasher : α → UInt64}
    (hcongr : ∀ {a b : α}, (a == b) = true → hasher a = hasher b) :
    (SlotTable.withHasher hasher : SlotTable α β).WellFormed where
  hash_congr := hcongr
  power := ⟨3, rfl⟩
  minimum := Nat.le_refl minSlots
  load := by simp [SlotTable.withHasher]
  indexed := Indexed.nil minSlots
  hash_eq := by simp [SlotTable.withHasher]
  distinct := by simp [SlotTable.withHasher]

theorem empty [Hashable α] [LawfulHashable α] : (empty : SlotTable α β).WellFormed :=
  withHasher fun {a b} => LawfulHashable.hash_eq a b

/-- Three slots out of four at most are in use. -/
theorem length_hashes_lt {table : SlotTable α β} (h : table.WellFormed) :
    (table.entries.toList.map (·.hash)).length < table.slots.size := by
  have hpos := Nat.pos_of_isPowerOfTwo h.power
  have hload := h.load
  rw [List.length_map, Array.length_toList]
  omega

/-- No two entries have equal keys. -/
theorem place_unique {table : SlotTable α β} [PartialEquivBEq α] (h : table.WellFormed)
    {i j : Nat} {entry entry' : Entry α β} (hi : table.entries[i]? = some entry)
    (hj : table.entries[j]? = some entry') (hkey : (entry.key == entry'.key) = true) : i = j := by
  have hpair := List.pairwise_iff_getElem.1 h.distinct
  obtain ⟨hi, rfl⟩ := Array.getElem?_eq_some_iff.1 hi
  obtain ⟨hj, rfl⟩ := Array.getElem?_eq_some_iff.1 hj
  rcases Nat.lt_trichotomy i j with hlt | heq | hlt
  · have := hpair i j (by rwa [Array.length_toList]) (by rwa [Array.length_toList]) hlt
    simp [hkey] at this
  · exact heq
  · have := hpair j i (by rwa [Array.length_toList]) (by rwa [Array.length_toList]) hlt
    simp [BEq.symm hkey] at this

end WellFormed

/-! ## Making room -/

variable {table : SlotTable α β}

omit [BEq α] in
@[simp] theorem widen_hasher (needed : Nat) : (table.widen needed).hasher = table.hasher := by
  simp only [widen]; split <;> rfl

omit [BEq α] in
@[simp] theorem widen_entries (needed : Nat) : (table.widen needed).entries = table.entries := by
  simp only [widen]; split <;> rfl

omit [BEq α] in
@[simp] theorem toList_widen (needed : Nat) : (table.widen needed).toList = table.toList := by
  rw [toList, toList, widen_entries]

omit [BEq α] in
/-- The slots after making room are those there were, or fresh ones with all entries. -/
theorem widen_slots (needed : Nat) :
    (table.widen needed).slots =
      if haveRoom table.slots.size needed then table.slots
      else placed table.entries (grownSlots needed table.slots.size) := by
  simp only [widen]; split <;> rfl

/-- Making room leaves a slot for each entry asked for. -/
theorem WellFormed.widen (h : table.WellFormed) (needed : Nat) :
    (table.widen needed).WellFormed ∧ 4 * needed ≤ 3 * (table.widen needed).slots.size := by
  suffices hslots : (table.widen needed).slots.size.isPowerOfTwo ∧
      table.slots.size ≤ (table.widen needed).slots.size ∧
      4 * needed ≤ 3 * (table.widen needed).slots.size ∧
      Indexed (table.entries.toList.map (·.hash)) (table.widen needed).slots by
    obtain ⟨hpower, hle, hroom, hindexed⟩ := hslots
    have hload := h.load
    refine ⟨⟨fun hab => by simpa using h.hash_congr hab, hpower, Nat.le_trans h.minimum hle, ?_,
      by simpa using hindexed, by simpa using h.hash_eq, by simpa using h.distinct⟩, hroom⟩
    rw [widen_entries]
    omega
  rw [widen_slots]
  split
  · next hroom =>
    simp only [haveRoom, decide_eq_true_eq] at hroom
    exact ⟨h.power, Nat.le_refl _, by omega, h.indexed⟩
  · obtain ⟨hpower, hle, hroom⟩ := grownSlots_spec needed h.power
    have hfew := h.length_hashes_lt
    rw [List.length_map, Array.length_toList] at hfew
    obtain ⟨hsize, hindexed⟩ := indexed_placed table.entries hpower (by omega)
    rw [hsize]
    exact ⟨hpower, hle, by omega, hindexed⟩

/-! ## Lookup -/

/-- What a search finds is an entry with the hash and the key. -/
theorem findFrom_eq_some {hash : UInt64} {key : α} {i : Nat} :
    ∀ {steps slot : Nat}, table.findFrom hash key steps slot = some i →
      ∃ entry, table.entries[i]? = some entry ∧ (entry.key == key) = true
  | 0, _, h => by simp [findFrom] at h
  | steps + 1, slot, h => by
    rw [findFrom] at h
    split at h
    · split at h
      · next entry hentry =>
        split at h
        · next hsame =>
          obtain rfl := Option.some.inj h
          exact ⟨entry, hentry, by simp_all⟩
        · exact findFrom_eq_some h
      · simp at h
    · simp at h

/-- A search on the probe path of an entry goes on to it, past the entries with other keys. -/
theorem findFrom_reach [EquivBEq α] (h : table.WellFormed) {entry : Entry α β} {key : α} {i d : Nat}
    (hentry : table.entries[i]? = some entry) (hkey : (entry.key == key) = true)
    (hat : table.slots[probe table.slots.size entry.hash d]? = some (some i))
    (hpath : ∀ e < d, ∃ j, table.slots[probe table.slots.size entry.hash e]? = some (some j)) :
    ∀ {steps distance : Nat}, distance ≤ d → d < distance + steps →
      table.findFrom entry.hash key steps (probe table.slots.size entry.hash distance) = some i
  | 0, distance, hle, hlt => absurd hle (by omega)
  | steps + 1, distance, hle, hlt => by
    rw [findFrom]
    rcases Nat.eq_or_lt_of_le hle with rfl | hle
    · simp [hat, hentry, hkey]
    · obtain ⟨j, hj⟩ := hpath distance hle
      have hjlt := h.indexed.bound hj
      simp only [List.length_map, Array.length_toList] at hjlt
      have hjget : table.entries[j]? = some table.entries[j] := Array.getElem?_eq_getElem hjlt
      simp only [hj, hjget]
      split
      · next hsame =>
        have hjkey : (table.entries[j].key == entry.key) = true :=
          BEq.trans (Bool.and_eq_true_iff.1 hsame).2 (BEq.symm hkey)
        rw [h.place_unique hjget hentry hjkey]
      · rw [nextSlot_probe h.power]
        exact findFrom_reach h hentry hkey hat hpath (by omega) (by omega)

/-- A search finds the entry with an equal key, if there is one. -/
theorem find_eq_some_iff [EquivBEq α] (h : table.WellFormed) {key : α} {i : Nat} :
    table.find (table.hasher key) key = some i ↔
      ∃ entry, table.entries[i]? = some entry ∧ (entry.key == key) = true := by
  refine ⟨findFrom_eq_some, fun ⟨entry, hentry, hkey⟩ => ?_⟩
  have hmem : entry ∈ table.entries.toList := Array.mem_toList_iff.2 (Array.mem_of_getElem? hentry)
  have hhash : table.hasher key = entry.hash :=
    (h.hash_congr (BEq.symm hkey)).trans (h.hash_eq entry hmem).symm
  have hplace : (table.entries.toList.map (·.hash))[i]? = some entry.hash := by
    rw [List.getElem?_map, Array.getElem?_toList, hentry]
    rfl
  obtain ⟨d, hd, hat, hpath⟩ := h.indexed.reach hplace
  rw [find, hhash, homeSlot_eq h.power]
  exact findFrom_reach h hentry hkey hat hpath (Nat.zero_le d) (by omega)

/-- The value of a key is that of the pair with an equal key. -/
theorem WellFormed.get?_eq_some_iff [EquivBEq α] (h : table.WellFormed) {key : α} {value : β} :
    table.get? key = some value ↔ ∃ key', (key', value) ∈ table.toList ∧ (key' == key) = true := by
  simp only [get?, toList, List.mem_map, Prod.mk.injEq, Option.bind_eq_bind,
    Option.bind_eq_some_iff, Option.map_eq_map, Option.map_eq_some_iff, find_eq_some_iff h]
  constructor
  · rintro ⟨i, ⟨entry, hentry, hkey⟩, entry', hentry', rfl⟩
    obtain rfl := Option.some.inj (hentry.symm.trans hentry')
    have hmem : entry ∈ table.entries.toList :=
      Array.mem_toList_iff.2 (Array.mem_of_getElem? hentry)
    exact ⟨entry.key, ⟨entry, hmem, rfl, rfl⟩, hkey⟩
  · rintro ⟨key', ⟨entry, hmem, rfl, rfl⟩, hkey⟩
    obtain ⟨i, hi⟩ := Array.getElem?_of_mem (Array.mem_toList_iff.1 hmem)
    exact ⟨i, ⟨entry, hi, hkey⟩, entry, hi, rfl⟩

/-- A key has the value of the first pair with this key. -/
theorem WellFormed.get?_eq_find? [EquivBEq α] (h : table.WellFormed) (key : α) :
    table.get? key = (table.toList.find? fun pair => pair.1 == key).map Prod.snd := by
  cases hfind : table.toList.find? (fun pair => pair.1 == key) with
  | some pair =>
    have hsame := List.find?_some hfind
    exact h.get?_eq_some_iff.2 ⟨pair.1, List.mem_of_find?_eq_some hfind, hsame⟩
  | none =>
    refine Option.eq_none_iff_forall_ne_some.2 fun value hvalue => ?_
    obtain ⟨key', hmem, hsame⟩ := h.get?_eq_some_iff.1 hvalue
    exact List.find?_eq_none.1 hfind _ hmem hsame

/-- Equal keys have the same value. -/
theorem WellFormed.get?_congr [EquivBEq α] (h : table.WellFormed) {a b : α}
    (hab : (a == b) = true) : table.get? a = table.get? b := by
  apply Option.ext
  intro value
  rw [h.get?_eq_some_iff, h.get?_eq_some_iff]
  constructor
  · rintro ⟨key, hmem, hkey⟩
    exact ⟨key, hmem, BEq.trans hkey hab⟩
  · rintro ⟨key, hmem, hkey⟩
    exact ⟨key, hmem, BEq.trans hkey (BEq.symm hab)⟩

theorem WellFormed.contains_congr [EquivBEq α] (h : table.WellFormed) {a b : α}
    (hab : (a == b) = true) : table.contains a = table.contains b := by
  rw [contains, contains, h.get?_congr hab]

theorem contains_of_get? {key : α} {value : β} (h : table.get? key = some value) :
    table.contains key = true := by
  rw [contains, h, Option.isSome_some]

/-- A key that is present differs from one that is not. -/
theorem WellFormed.beq_eq_false [EquivBEq α] (h : table.WellFormed) {a b : α}
    (ha : table.contains a = true) (hb : table.contains b = false) : (a == b) = false := by
  rw [← Bool.not_eq_true]
  intro hab
  rw [h.contains_congr hab, hb] at ha
  cases ha

omit [BEq α] in
theorem keys_eq_map : table.keys = table.toList.map Prod.fst := by
  simp [keys, toList, Function.comp_def]

omit [BEq α] in
theorem mem_keys {key : α} : key ∈ table.keys ↔ ∃ value, (key, value) ∈ table.toList := by
  simp only [keys, toList, List.mem_map, Prod.mk.injEq]
  constructor
  · rintro ⟨entry, hmem, rfl⟩
    exact ⟨entry.value, entry, hmem, rfl, rfl⟩
  · rintro ⟨value, entry, hmem, rfl, -⟩
    exact ⟨entry, hmem, rfl⟩

/-- A key is present when an equal one was accepted. -/
theorem WellFormed.contains_iff [EquivBEq α] (h : table.WellFormed) {key : α} :
    table.contains key = true ↔ ∃ key' ∈ table.keys, (key' == key) = true := by
  rw [contains, Option.isSome_iff_exists]
  simp only [h.get?_eq_some_iff, mem_keys]
  constructor
  · rintro ⟨value, key', hmem, hkey⟩
    exact ⟨key', ⟨value, hmem⟩, hkey⟩
  · rintro ⟨key', ⟨value, hmem⟩, hkey⟩
    exact ⟨value, key', hmem, hkey⟩

@[simp] theorem contains_empty [Hashable α] [LawfulHashable α] [EquivBEq α] (key : α) :
    (empty : SlotTable α β).contains key = false := by
  rw [← Bool.not_eq_true, WellFormed.empty.contains_iff]
  rintro ⟨key', hkey', -⟩
  cases hkey'

theorem WellFormed.keys_distinct (h : table.WellFormed) :
    table.keys.Pairwise fun a b => (a == b) = false :=
  List.pairwise_map.2 h.distinct

omit [BEq α] in
@[simp] theorem size_eq_length : table.size = table.toList.length := by
  simp [size, toList]

/-! ## Insertion -/

/-- An entry for a new key stands after all others. -/
theorem WellFormed.push [EquivBEq α] (h : table.WellFormed) {key : α} (value : β)
    (hnew : table.contains key = false) :
    (table.push (table.hasher key) key value).WellFormed ∧
      (table.push (table.hasher key) key value).toList = table.toList ++ [(key, value)] := by
  obtain ⟨hwell, hroom⟩ := h.widen (table.entries.size + 1)
  have hpos := Nat.pos_of_isPowerOfTwo hwell.power
  have hindexed := hwell.indexed.occupy hwell.power
    (by rw [List.length_map, Array.length_toList, widen_entries]; omega) (table.hasher key)
  have hfresh : ∀ entry ∈ table.entries.toList, (entry.key == key) = false := by
    intro entry hmem
    rw [← Bool.not_eq_true]
    intro hkey
    have := h.contains_iff.2 ⟨entry.key, List.mem_map_of_mem hmem, hkey⟩
    simp [hnew] at this
  simp only [List.length_map, Array.length_toList, widen_entries] at hindexed
  refine ⟨⟨fun hab => ?_, ?_, ?_, ?_, ?_, ?_, ?_⟩, ?_⟩ <;>
    simp only [SlotTable.push, append, widen_hasher, widen_entries, size_occupy, Array.toList_push,
      List.map_append, List.map_cons, List.map_nil, Array.size_push, toList]
  · exact h.hash_congr hab
  · exact hwell.power
  · exact hwell.minimum
  · omega
  · exact hindexed
  · intro entry hmem
    rcases List.mem_append.1 hmem with hmem | hmem
    · exact h.hash_eq entry hmem
    · obtain rfl := List.mem_singleton.1 hmem
      rfl
  · refine List.pairwise_append.2 ⟨h.distinct, List.pairwise_singleton _ _, fun e he e' he' => ?_⟩
    obtain rfl := List.mem_singleton.1 he'
    exact hfresh e he

/-- A search finds an entry for the keys that are present. -/
theorem WellFormed.isSome_find [EquivBEq α] (h : table.WellFormed) (key : α) :
    (table.find (table.hasher key) key).isSome = table.contains key := by
  cases hfind : table.find (table.hasher key) key with
  | some i =>
    obtain ⟨entry, hentry, hkey⟩ := (find_eq_some_iff h).1 hfind
    have hmem : entry ∈ table.entries.toList :=
      Array.mem_toList_iff.2 (Array.mem_of_getElem? hentry)
    exact (h.contains_iff.2 ⟨entry.key, List.mem_map_of_mem hmem, hkey⟩).symm
  | none => simp [contains, get?, hfind]

/-- Insertion refuses a key that is present and appends a pair for any other key. -/
theorem WellFormed.insert_eq [EquivBEq α] (h : table.WellFormed) (key : α) (value : β) :
    table.insert key value =
      if table.contains key then (table, some (key, value))
      else (table.push (table.hasher key) key value, none) := by
  rw [SlotTable.insert, ← h.isSome_find key]
  cases table.find (table.hasher key) key with
  | some i => rfl
  | none => rfl

theorem WellFormed.insert [EquivBEq α] (h : table.WellFormed) (key : α) (value : β) :
    (table.insert key value).1.WellFormed := by
  rw [h.insert_eq]
  split
  · exact h
  · next hnew => exact (h.push value (by simpa using hnew)).1

theorem WellFormed.insertNew [EquivBEq α] (h : table.WellFormed) (key : α) (value : β) :
    (table.insertNew key value).WellFormed :=
  h.insert key value

theorem WellFormed.insertNew_of_contains [EquivBEq α] (h : table.WellFormed) {key : α}
    (hkey : table.contains key = true) (value : β) : table.insertNew key value = table := by
  rw [SlotTable.insertNew, h.insert_eq, if_pos hkey]

theorem WellFormed.toList_insertNew [EquivBEq α] (h : table.WellFormed) {key : α}
    (hkey : table.contains key = false) (value : β) :
    (table.insertNew key value).toList = table.toList ++ [(key, value)] := by
  rw [SlotTable.insertNew, h.insert_eq, if_neg (by simp [hkey])]
  exact (h.push value hkey).2

theorem WellFormed.mem_toList_insertNew [EquivBEq α] (h : table.WellFormed) {key : α}
    (hkey : table.contains key = false) (value : β) {pair : α × β} :
    pair ∈ (table.insertNew key value).toList ↔ pair ∈ table.toList ∨ pair = (key, value) := by
  rw [h.toList_insertNew hkey, List.mem_append, List.mem_singleton]

/-- A new key has the value inserted, every other key the value that it had. -/
theorem WellFormed.get?_insertNew [EquivBEq α] (h : table.WellFormed) {key : α}
    (hkey : table.contains key = false) (value : β) (other : α) :
    (table.insertNew key value).get? other =
      if key == other then some value else table.get? other := by
  apply Option.ext
  intro found
  rw [(h.insertNew key value).get?_eq_some_iff]
  simp only [h.mem_toList_insertNew hkey]
  split
  · next hsame =>
    constructor
    · rintro ⟨key', hmem | hmem, hkey'⟩
      · have := h.contains_iff.2 ⟨key', mem_keys.2 ⟨found, hmem⟩, hkey'⟩
        rw [← h.contains_congr hsame, hkey] at this
        cases this
      · obtain ⟨rfl, rfl⟩ := Prod.mk.inj hmem
        rfl
    · rintro hfound
      obtain rfl := Option.some.inj hfound
      exact ⟨key, Or.inr rfl, hsame⟩
  · next hother =>
    rw [h.get?_eq_some_iff]
    constructor
    · rintro ⟨key', hmem | hmem, hkey'⟩
      · exact ⟨key', hmem, hkey'⟩
      · obtain ⟨rfl, rfl⟩ := Prod.mk.inj hmem
        exact absurd hkey' hother
    · rintro ⟨key', hmem, hkey'⟩
      exact ⟨key', Or.inl hmem, hkey'⟩

theorem WellFormed.contains_insertNew [EquivBEq α] (h : table.WellFormed) (key : α) (value : β)
    (other : α) :
    (table.insertNew key value).contains other = (table.contains other || key == other) := by
  cases hkey : table.contains key with
  | true =>
    rw [h.insertNew_of_contains hkey]
    cases hsame : key == other with
    | true => rw [← h.contains_congr hsame, hkey, Bool.or_true]
    | false => rw [Bool.or_false]
  | false =>
    rw [contains, h.get?_insertNew hkey]
    cases key == other <;> simp [contains]

end SlotTable

end Injection
