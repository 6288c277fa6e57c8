/-
  How the slots of a table grow, in numbers and in words of 64 bits.

  Slots are doubled until there is room for all entries.  In numbers this ends
  at the least power of two with enough room.  In words it is the same as long
  as the entries are no more than `maxEntries`.  For more of them the doubling
  goes past the greatest power of two that is a word: a program that keeps the
  lowest 64 bits doubles zero for ever, and any other stops.

  * `Overflow.counted` is the number of entries for which room is made,
    `Overflow.exceeds` says that there cannot be any;
  * `grownSlotsIn?_eq_grownSlots?`: no number of rounds makes a difference to the
    doubling in words, and `grownSlots?_eq` says how it ends;
  * `reserve?_eq` and `insert?_eq`: a reservation and an insertion in words are
    those in numbers, or do not come to an end;
  * `Reached`: the tables that a program can get, all of them well-formed and
    with `2 ^ 62` slots at most.
-/
import Injection.Proofs.SlotTable
import Mathlib.Algebra.Order.Ring.Nat
import Mathlib.Order.Bounds.Basic

namespace Injection

namespace SlotTable

/-! ## Doubling -/

/-- Of two powers of two the greater one is at least the double of the other. -/
theorem mul_two_le_of_lt {a b : Nat} (ha : a.isPowerOfTwo) (hb : b.isPowerOfTwo) (hlt : a < b) :
    a * 2 ≤ b := by
  obtain ⟨i, rfl⟩ := ha
  obtain ⟨j, rfl⟩ := hb
  have hij : i < j := (Nat.pow_lt_pow_iff_right (by decide)).1 hlt
  rw [← Nat.pow_succ]
  exact Nat.pow_le_pow_right (by decide) hij

theorem grownSlots_of_room {needed slots : Nat} (h : needed * 4 ≤ slots * 3) :
    grownSlots needed slots = slots := by
  rw [grownSlots, dif_neg (by omega)]

/-- Doubling does not go beyond a power of two with enough room. -/
theorem grownSlots_le {needed slots enough : Nat} (hk : slots.isPowerOfTwo)
    (henough : enough.isPowerOfTwo) (hroom : needed * 4 ≤ enough * 3) (hle : slots ≤ enough) :
    grownSlots needed slots ≤ enough := by
  fun_induction grownSlots needed slots with
  | case1 slots hlt ih =>
    exact ih (Nat.isPowerOfTwo_mul_two_of_isPowerOfTwo hk)
      (mul_two_le_of_lt hk henough (by omega))
  | case2 slots _ => exact hle

theorem grownSlots_isLeast {needed slots : Nat} (hk : slots.isPowerOfTwo)
    (hlt : slots * 3 < needed * 4) :
    IsLeast {s : Nat | s.isPowerOfTwo ∧ 4 * needed ≤ 3 * s} (grownSlots needed slots) := by
  obtain ⟨hpower, -, hroom⟩ := grownSlots_spec needed hk
  refine ⟨⟨hpower, by omega⟩, fun s hs => ?_⟩
  obtain ⟨hs, hsroom⟩ := hs
  exact grownSlots_le hk hs (by omega) (by omega)

/-- More entries would need more than `2 ^ 62` slots. -/
def maxEntries : Nat := 3 * 2 ^ 60

theorem grownSlots_le_two_pow {needed slots : Nat} (hk : slots.isPowerOfTwo)
    (hneeded : needed ≤ maxEntries) (hslots : slots ≤ 2 ^ 62) :
    grownSlots needed slots ≤ 2 ^ 62 := by
  unfold maxEntries at hneeded
  exact grownSlots_le hk ⟨62, rfl⟩ (by omega) hslots

/-! ## Words -/

namespace Overflow

variable {overflow : Overflow}

/-- The number of entries for which room is made, of those that are needed: it is taken four times,
    and a product that wraps shows its lowest 62 bits only. -/
def counted : Overflow → Nat → Nat
  | .wraps, needed => needed % 2 ^ 62
  | .stops, needed => needed

/-- Whether there is no number of slots, among the words, with room for the entries counted. -/
def exceeds (overflow : Overflow) (needed : Nat) : Bool := maxEntries < overflow.counted needed

theorem exceeds_iff {needed : Nat} :
    overflow.exceeds needed = true ↔ maxEntries < overflow.counted needed :=
  decide_eq_true_iff

theorem word_of_lt {n : Nat} (h : n < UInt64.size) : overflow.word n = some n := by
  cases overflow with
  | wraps => rw [word, Nat.mod_eq_of_lt h]
  | stops => rw [word, if_pos h]

theorem counted_of_lt {needed : Nat} (h : needed < 2 ^ 62) :
    overflow.counted needed = needed := by
  cases overflow with
  | wraps => exact Nat.mod_eq_of_lt h
  | stops => rfl

theorem exceeds_eq_false {needed : Nat} (h : needed ≤ maxEntries) :
    overflow.exceeds needed = false := by
  have hlt : needed < 2 ^ 62 := by
    unfold maxEntries at h
    omega
  rw [exceeds, counted_of_lt hlt]
  exact decide_eq_false (by omega)

theorem eq_mod_of_word {n word : Nat} (h : overflow.word n = some word) :
    word = n % UInt64.size := by
  cases overflow with
  | wraps => exact (Option.some.inj h).symm
  | stops =>
    obtain ⟨hlt, h⟩ := Option.ite_none_right_eq_some.1 h
    rw [Nat.mod_eq_of_lt hlt]
    exact (Option.some.inj h).symm

/-- A word counts as the number that it is for. -/
theorem counted_word {n word : Nat} (h : overflow.word n = some word) :
    overflow.counted word = overflow.counted n := by
  cases overflow with
  | wraps =>
    obtain rfl := Option.some.inj h
    rw [counted, counted, UInt64.size]
    omega
  | stops =>
    rw [Overflow.word, Option.ite_none_right_eq_some] at h
    rw [Option.some.inj h.2]

theorem exceeds_word {n word : Nat} (h : overflow.word n = some word) :
    overflow.exceeds word = overflow.exceeds n := by
  rw [exceeds, exceeds, counted_word h]

theorem exceeds_of_le {needed : Nat} (h : 2 ^ 62 ≤ overflow.counted needed) :
    overflow.exceeds needed = true := by
  rw [exceeds_iff, maxEntries]
  omega

/-- A number without a word is too great. -/
theorem exceeds_of_word {n : Nat} (h : overflow.word n = none) : overflow.exceeds n = true := by
  cases overflow with
  | wraps => cases h
  | stops =>
    rw [word, ite_eq_right_iff] at h
    refine exceeds_of_le (Nat.not_lt.1 fun hlt => ?_)
    rw [counted] at hlt
    cases h (by rw [UInt64.size]; omega)

/-- The product that is compared, of the entries that are needed. -/
theorem word_mul_four (needed : Nat) :
    overflow.word (needed * 4) =
      if overflow.counted needed < 2 ^ 62 then some (overflow.counted needed * 4) else none := by
  cases overflow with
  | wraps =>
    have hlt : needed % 2 ^ 62 < 2 ^ 62 := Nat.mod_lt _ (by decide)
    rw [word, counted, if_pos hlt, UInt64.size]
    congr 1
    omega
  | stops =>
    rw [word, counted, UInt64.size]
    by_cases hlt : needed < 2 ^ 62
    · rw [if_pos hlt, if_pos (by omega)]
    · rw [if_neg hlt, if_neg (by omega)]

end Overflow

variable {overflow : Overflow}

theorem haveRoom?_eq {slots : Nat} (hslots : slots ≤ 2 ^ 62) (needed : Nat) :
    haveRoom? overflow slots needed =
      if overflow.counted needed < 2 ^ 62 then some (haveRoom slots (overflow.counted needed))
      else none := by
  have hword : overflow.word (slots * 3) = some (slots * 3) :=
    Overflow.word_of_lt (by rw [UInt64.size]; omega)
  rw [haveRoom?, Overflow.word_mul_four, hword]
  split <;> rfl

/-- Zero is doubled for ever. -/
theorem grownSlotsIn?_zero (needed rounds : Nat) :
    grownSlotsIn? overflow needed (rounds + 1) 0 = grownSlotsIn? overflow needed 1 0 := by
  induction rounds with
  | zero => rfl
  | succ rounds ih =>
    rw [grownSlotsIn?]
    cases hroom : haveRoom? overflow 0 needed with
    | none => rw [grownSlotsIn?, hroom]; rfl
    | some room =>
      cases room with
      | true => rw [grownSlotsIn?, hroom]; rfl
      | false => rw [Nat.zero_mul, Overflow.word_of_lt (by decide)]; exact ih

/-- With a word that `left` doublings make zero, no round after the next one tells more. -/
theorem grownSlotsIn?_add (needed more : Nat) : ∀ {left slots : Nat}, slots < UInt64.size →
    UInt64.size ∣ slots * 2 ^ left →
      grownSlotsIn? overflow needed (left + 1 + more) slots =
        grownSlotsIn? overflow needed (left + 1) slots
  | 0, slots, hword, hzero => by
    rw [Nat.pow_zero, Nat.mul_one] at hzero
    obtain rfl := Nat.eq_zero_of_dvd_of_lt hzero hword
    rw [Nat.zero_add, Nat.add_comm]
    exact grownSlotsIn?_zero needed more
  | left + 1, slots, _, hzero => by
    rw [show left + 1 + 1 + more = left + 1 + more + 1 by omega, grownSlotsIn?, grownSlotsIn?]
    cases haveRoom? overflow slots needed with
    | none => rfl
    | some room =>
      cases room with
      | true => rfl
      | false =>
        cases hdoubled : overflow.word (slots * 2) with
        | none => rfl
        | some doubled =>
          obtain rfl := Overflow.eq_mod_of_word hdoubled
          refine grownSlotsIn?_add needed more (Nat.mod_lt _ (by decide)) ?_
          rw [Nat.dvd_iff_mod_eq_zero, Nat.mod_mul_mod, Nat.mul_assoc, ← Nat.pow_succ']
          exact Nat.mod_eq_zero_of_dvd hzero

/-- The rounds of `grownSlots?` are as good as any number of them. -/
theorem grownSlotsIn?_eq_grownSlots? {needed rounds slots : Nat} (hslots : slots < UInt64.size)
    (hrounds : 65 ≤ rounds) :
    grownSlotsIn? overflow needed rounds slots = grownSlots? overflow needed slots := by
  obtain ⟨more, rfl⟩ := Nat.exists_eq_add_of_le hrounds
  exact grownSlotsIn?_add needed more hslots (Nat.dvd_mul_left (2 ^ 64) slots)

/-- Where there are enough slots, doubling in words ends where that of numbers does. -/
theorem grownSlotsIn?_eq {needed slots rounds : Nat} (hk : slots.isPowerOfTwo)
    (hslots : slots ≤ 2 ^ 62) (hneeded : overflow.counted needed ≤ maxEntries)
    (hrounds : 2 ^ 62 < slots * 2 ^ rounds) :
    grownSlotsIn? overflow needed rounds slots =
      some (grownSlots (overflow.counted needed) slots) := by
  have hlt : overflow.counted needed < 2 ^ 62 := by
    unfold maxEntries at hneeded
    omega
  fun_induction grownSlots (overflow.counted needed) slots generalizing rounds with
  | case1 slots hroom ih =>
    have hmore : slots * 2 ≤ 2 ^ 62 := by
      refine mul_two_le_of_lt hk ⟨62, rfl⟩ ?_
      unfold maxEntries at hneeded
      omega
    have hword : overflow.word (slots * 2) = some (slots * 2) :=
      Overflow.word_of_lt (by rw [UInt64.size]; omega)
    have hfull : haveRoom slots (overflow.counted needed) = false :=
      decide_eq_false (by omega)
    cases rounds with
    | zero => omega
    | succ rounds =>
      rw [grownSlotsIn?, haveRoom?_eq hslots, if_pos hlt, hfull, hword]
      refine ih (Nat.isPowerOfTwo_mul_two_of_isPowerOfTwo hk) hmore ?_
      rwa [Nat.mul_assoc, ← Nat.pow_succ']
  | case2 slots hroom =>
    have hpos := Nat.pos_of_isPowerOfTwo hk
    have henough : haveRoom slots (overflow.counted needed) = true :=
      decide_eq_true (by omega)
    cases rounds with
    | zero => omega
    | succ rounds =>
      rw [grownSlotsIn?, haveRoom?_eq hslots, if_pos hlt, henough]
      rfl

/-- The numbers of slots to which doubling in words can lead: a power of two, and zero after the
    greatest one. -/
def OnTheWay (slots : Nat) : Prop :=
  slots = 0 ∨ slots = 2 ^ 63 ∨ slots.isPowerOfTwo ∧ slots ≤ 2 ^ 62

theorem OnTheWay.double {slots doubled : Nat} (h : OnTheWay slots)
    (hword : overflow.word (slots * 2) = some doubled) : OnTheWay doubled := by
  rcases h with rfl | rfl | ⟨hk, hle⟩
  · rw [Overflow.word_of_lt (by decide)] at hword
    exact .inl (Option.some.inj hword).symm
  · cases overflow with
    | wraps => exact .inl (Option.some.inj hword).symm
    | stops => cases hword
  · rw [Overflow.word_of_lt (by rw [UInt64.size]; omega)] at hword
    obtain rfl := Option.some.inj hword
    rcases Nat.eq_or_lt_of_le hle with rfl | hlt
    · exact .inr (.inl rfl)
    · exact .inr (.inr ⟨Nat.isPowerOfTwo_mul_two_of_isPowerOfTwo hk,
        mul_two_le_of_lt hk ⟨62, rfl⟩ hlt⟩)

/-- None of these numbers has room for more than `maxEntries`. -/
theorem OnTheWay.triple_le {slots usable : Nat} (h : OnTheWay slots)
    (hword : overflow.word (slots * 3) = some usable) : usable ≤ maxEntries * 4 := by
  rw [maxEntries]
  rcases h with rfl | rfl | ⟨-, hle⟩
  · rw [Overflow.word_of_lt (by decide)] at hword
    have := Option.some.inj hword
    omega
  · cases overflow with
    | wraps =>
      obtain rfl := Option.some.inj hword
      decide
    | stops => cases hword
  · rw [Overflow.word_of_lt (by rw [UInt64.size]; omega)] at hword
    have := Option.some.inj hword
    omega

/-- Doubling in words that comes to an end has found room for the entries counted. -/
theorem counted_le_of_grownSlotsIn? {needed result : Nat} : ∀ {rounds slots : Nat},
    OnTheWay slots → grownSlotsIn? overflow needed rounds slots = some result →
      overflow.counted needed ≤ maxEntries
  | 0, _, _, h => nomatch h
  | rounds + 1, slots, hslots, h => by
    obtain ⟨room, hroom, h⟩ := Option.bind_eq_some_iff.1 h
    obtain ⟨inUse, hinUse, hroom⟩ := Option.bind_eq_some_iff.1 hroom
    obtain ⟨usable, husable, hroom⟩ := Option.bind_eq_some_iff.1 hroom
    obtain rfl := Option.some.inj hroom
    split at h
    · next henough =>
      rw [Overflow.word_mul_four, Option.ite_none_right_eq_some] at hinUse
      have hinUse := Option.some.inj hinUse.2
      have htriple := hslots.triple_le husable
      have hle : inUse ≤ usable := of_decide_eq_true henough
      omega
    · obtain ⟨doubled, hdoubled, hrest⟩ := Option.bind_eq_some_iff.1 h
      exact counted_le_of_grownSlotsIn? (hslots.double hdoubled) hrest

/-- Doubling in words is that of numbers, unless it does not come to an end. -/
theorem grownSlots?_eq {slots : Nat} (hk : slots.isPowerOfTwo) (hslots : slots ≤ 2 ^ 62)
    (needed : Nat) :
    grownSlots? overflow needed slots =
      if overflow.exceeds needed then none
      else some (grownSlots (overflow.counted needed) slots) := by
  split
  · next hexceeds =>
    refine Option.eq_none_iff_forall_ne_some.2 fun result hresult => ?_
    have hneeded := counted_le_of_grownSlotsIn? (.inr (.inr ⟨hk, hslots⟩)) hresult
    exact absurd (Overflow.exceeds_iff.1 hexceeds) (by omega)
  · next hfits =>
    have hpos := Nat.pos_of_isPowerOfTwo hk
    rw [Overflow.exceeds_iff] at hfits
    exact grownSlotsIn?_eq hk hslots (by omega) (by omega)

/-- Entries for which there is room are not too many. -/
theorem exceeds_of_haveRoom {needed slots : Nat} (hslots : slots ≤ 2 ^ 62)
    (h : haveRoom slots (overflow.counted needed) = true) : overflow.exceeds needed = false := by
  have hroom : overflow.counted needed * 4 ≤ slots * 3 := of_decide_eq_true h
  rw [Overflow.exceeds, maxEntries]
  exact decide_eq_false (by omega)

/-! ## Reservations -/

variable {α β : Type} {table : SlotTable α β}

/-- A reservation in words makes room for the entries that it counts, unless it does not come to an
    end. -/
theorem reserve?_eq (overflow : Overflow) (hk : table.slots.size.isPowerOfTwo)
    (hslots : table.slots.size ≤ 2 ^ 62) (additional : UInt64) :
    let needed := table.entries.size + additional.toNat
    table.reserve? overflow additional =
      if overflow.exceeds needed then none else some (table.widen (overflow.counted needed)) := by
  intro needed
  rw [reserve?]
  cases hword : overflow.word needed with
  | none => rw [if_pos (Overflow.exceeds_of_word hword)]; rfl
  | some word =>
    have hcounted := Overflow.counted_word hword
    rw [Option.bind_eq_bind, Option.bind_some, haveRoom?_eq hslots, hcounted]
    split
    · rw [Option.bind_eq_bind, Option.bind_some]
      split
      · next hroom => rw [widen, if_pos hroom, exceeds_of_haveRoom hslots hroom]; rfl
      · next hroom =>
        rw [widen, if_neg hroom, grownSlots?_eq hk hslots, Overflow.exceeds_word hword, hcounted]
        split <;> rfl
    · next hge =>
      rw [Overflow.exceeds_of_le (Nat.not_lt.1 hge)]
      rfl

/-- A table with room for a number of entries can be had unless that is too great. -/
theorem withCapacity?_eq [Hashable α] (capacity : UInt64) :
    (withCapacity? overflow capacity : Option (SlotTable α β)) =
      if overflow.exceeds capacity.toNat then none
      else some (empty.widen (overflow.counted capacity.toNat)) := by
  have hreserve := @reserve?_eq α β empty overflow ⟨3, rfl⟩
    (by decide : minSlots ≤ 2 ^ 62) capacity
  have hnone : (empty : SlotTable α β).entries.size = 0 := rfl
  simp only [hnone, Nat.zero_add] at hreserve
  exact hreserve

/-- For `2 ^ 62 - 1` entries the double of the slots is no word, whether it wraps or not. -/
example : (withCapacity? overflow 4611686018427387903 : Option (SlotTable Nat Nat)) = none := by
  cases overflow <;> exact withCapacity?_eq 4611686018427387903

/-- A great number that wraps to a small one leaves a table as it is. -/
example : (withCapacity? .wraps 4611686018427387904 : Option (SlotTable Nat Nat)) = some empty :=
  withCapacity?_eq 4611686018427387904

theorem size_entries_push (hash : UInt64) (key : α) (value : β) :
    (table.push hash key value).entries.size = table.entries.size + 1 := by
  simp [push, append]

theorem size_slots_push (hash : UInt64) (key : α) (value : β) :
    (table.push hash key value).slots.size =
      (table.widen (table.entries.size + 1)).slots.size :=
  size_occupy _ _ _

variable [BEq α]

/-- The slots are doubled as often as it takes. -/
theorem WellFormed.size_slots_widen (h : table.WellFormed) (needed : Nat) :
    (table.widen needed).slots.size = grownSlots needed table.slots.size := by
  rw [widen_slots]
  split
  · next hroom => rw [grownSlots_of_room (by simpa [haveRoom] using hroom)]
  · obtain ⟨hpower, hle, -⟩ := grownSlots_spec needed h.power
    have hfew := h.length_hashes_lt
    rw [List.length_map, Array.length_toList] at hfew
    exact (indexed_placed table.entries hpower (by omega)).1

/-- One entry more counts as such. -/
theorem counted_size_succ (h : table.WellFormed) (hslots : table.slots.size ≤ 2 ^ 62) :
    overflow.counted (table.entries.size + 1) = table.entries.size + 1 := by
  have hload := h.load
  exact Overflow.counted_of_lt (by omega)

/-- An insertion in words is the one in numbers, unless it needs room for one entry too many. -/
theorem WellFormed.insert?_eq [EquivBEq α] (h : table.WellFormed)
    (hslots : table.slots.size ≤ 2 ^ 62) (overflow : Overflow) (key : α) (value : β) :
    table.insert? overflow key value =
      if !table.contains key && overflow.exceeds (table.entries.size + 1) then none
      else some (table.insert key value) := by
  rw [insert?, SlotTable.insert, ← h.isSome_find key]
  cases table.find (table.hasher key) key with
  | some i => rfl
  | none =>
    have hreserve := reserve?_eq overflow h.power hslots 1
    simp only [UInt64.toNat_one, counted_size_succ h hslots] at hreserve
    rw [hreserve]
    cases overflow.exceeds (table.entries.size + 1) with
    | true => rfl
    | false => rfl

/-! ## The tables of a program -/

/-- A table as a program gets it, by insertions and reservations that come to an end. -/
inductive Reached (overflow : Overflow) : SlotTable α β → Prop
  | withHasher {hasher : α → UInt64}
      (hcongr : ∀ {a b : α}, (a == b) = true → hasher a = hasher b) :
      Reached overflow (withHasher hasher)
  | insert {table next : SlotTable α β} {key : α} {value : β} {refused : Option (α × β)} :
      Reached overflow table → table.insert? overflow key value = some (next, refused) →
        Reached overflow next
  | reserve {table next : SlotTable α β} {additional : UInt64} :
      Reached overflow table → table.reserve? overflow additional = some next →
        Reached overflow next

namespace Reached

theorem withCapacity [Hashable α] [LawfulHashable α] {capacity : UInt64}
    (h : withCapacity? overflow capacity = some table) : table.Reached overflow :=
  .reserve (.withHasher fun {a b} => LawfulHashable.hash_eq a b) h

/-- Such a table is well-formed, and three times the number of its slots is a word. -/
theorem sound [EquivBEq α] (h : table.Reached overflow) :
    table.WellFormed ∧ table.slots.size ≤ 2 ^ 62 := by
  induction h with
  | withHasher hcongr => exact ⟨.withHasher hcongr, (by decide : minSlots ≤ 2 ^ 62)⟩
  | @insert table next key value refused _ hinsert ih =>
    obtain ⟨hwell, hslots⟩ := ih
    rw [hwell.insert?_eq hslots overflow] at hinsert
    obtain ⟨hfits, hinsert⟩ := Option.ite_none_left_eq_some.1 hinsert
    obtain rfl : (table.insert key value).1 = next := congrArg Prod.fst (Option.some.inj hinsert)
    refine ⟨hwell.insert key value, ?_⟩
    rw [hwell.insert_eq]
    split
    · exact hslots
    · next hnew =>
      rw [Bool.not_eq_true] at hnew
      rw [hnew, Bool.not_false, Bool.true_and, Overflow.exceeds_iff,
        counted_size_succ hwell hslots] at hfits
      rw [size_slots_push, hwell.size_slots_widen]
      exact grownSlots_le_two_pow hwell.power (by omega) hslots
  | @reserve table next additional _ hreserve ih =>
    obtain ⟨hwell, hslots⟩ := ih
    rw [reserve?_eq overflow hwell.power hslots] at hreserve
    obtain ⟨hfits, hreserve⟩ := Option.ite_none_left_eq_some.1 hreserve
    obtain rfl := Option.some.inj hreserve
    rw [hwell.size_slots_widen]
    rw [Overflow.exceeds_iff] at hfits
    exact ⟨(hwell.widen _).1, grownSlots_le_two_pow hwell.power (by omega) hslots⟩

/-- Pairs that are no more than words can count are inserted in words as they are in numbers. -/
theorem foldl_insertNew [EquivBEq α] : ∀ {table : SlotTable α β} (pairs : List (α × β)),
    table.Reached overflow → table.entries.size + pairs.length ≤ maxEntries →
      (pairs.foldl (fun table pair => table.insertNew pair.1 pair.2) table).Reached overflow
  | _, [], h, _ => h
  | table, (key, value) :: pairs, h, hfew => by
    obtain ⟨hwell, hslots⟩ := h.sound
    rw [List.length_cons] at hfew
    have hinsert := hwell.insert?_eq hslots overflow key value
    rw [Overflow.exceeds_eq_false (by omega), Bool.and_false, if_neg Bool.false_ne_true] at hinsert
    have hnext : (table.insertNew key value).Reached overflow := h.insert hinsert
    rw [List.foldl_cons]
    refine foldl_insertNew pairs hnext ?_
    show (table.insert key value).1.entries.size + pairs.length ≤ maxEntries
    rw [hwell.insert_eq]
    split
    · show table.entries.size + pairs.length ≤ maxEntries
      omega
    · rw [size_entries_push]
      omega

end Reached

end SlotTable

end Injection
