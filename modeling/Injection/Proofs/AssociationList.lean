/-
  A slot table answers lookups as the list of its pairs.

  The list of pairs is searched from its front, and a pair goes to its end
  unless an equal key stands in it.  Hashes and slots have no part in it.

  * `lookup_eq_some_iff`: in a list of pairs with different keys, the value of a
    key is that of the pair with an equal key;
  * `WellFormed.get?_eq_lookup`: a lookup in a table is one in its list of pairs,
    and `get?_ofPairs` says the same of a table to which any pairs were added.
-/
import Injection.Proofs.SlotTable

namespace Injection

namespace SlotTable

variable {α β : Type}

variable [BEq α]

/-! ## Lookup -/

/-- In a list of pairs with different keys, the value of a key is that of the pair with an equal
    key. -/
theorem lookup_eq_some_iff [EquivBEq α] {key : α} {value : β} :
    ∀ {pairs : List (α × β)}, (pairs.map Prod.fst).Pairwise (fun a b => (a == b) = false) →
      (pairs.lookup key = some value ↔ ∃ key', (key', value) ∈ pairs ∧ (key' == key) = true)
  | [], _ => by simp
  | (first, found) :: pairs, hdistinct => by
    obtain ⟨hfirst, hdistinct⟩ := List.pairwise_cons.1 hdistinct
    have ih : pairs.lookup key = some value ↔
        ∃ key', (key', value) ∈ pairs ∧ (key' == key) = true := lookup_eq_some_iff hdistinct
    rw [List.lookup_cons]
    cases hkey : key == first with
    | true =>
      -- no later pair has the key, or the first pair would be equal to it
      have hlater : ∀ key', (key', value) ∈ pairs → (key' == key) = false := by
        intro key' hmem
        rw [← Bool.not_eq_true]
        intro hsame
        have hdiffer := hfirst key' (List.mem_map_of_mem hmem)
        rw [BEq.symm (BEq.trans hsame hkey)] at hdiffer
        cases hdiffer
      constructor
      · intro hfound
        obtain rfl := Option.some.inj hfound
        exact ⟨first, List.mem_cons_self, BEq.symm hkey⟩
      · rintro ⟨key', hmem, hsame⟩
        rcases List.mem_cons.1 hmem with hmem | hmem
        · obtain ⟨rfl, rfl⟩ := Prod.mk.inj hmem
          rfl
        · rw [hlater key' hmem] at hsame
          cases hsame
    | false =>
      show pairs.lookup key = some value ↔ _
      rw [ih]
      constructor
      · rintro ⟨key', hmem, hsame⟩
        exact ⟨key', List.mem_cons_of_mem _ hmem, hsame⟩
      · rintro ⟨key', hmem, hsame⟩
        rcases List.mem_cons.1 hmem with hmem | hmem
        · obtain ⟨rfl, rfl⟩ := Prod.mk.inj hmem
          rw [BEq.symm hsame] at hkey
          cases hkey
        · exact ⟨key', hmem, hsame⟩

/-- Pairs whose keys differ from a key do not count for it. -/
theorem lookup_filter {key : α} {keep : α × β → Bool} {pairs : List (α × β)}
    (hkeep : ∀ pair, (key == pair.1) = true → keep pair = true) :
    (pairs.filter keep).lookup key = pairs.lookup key := by
  induction pairs with
  | nil => rfl
  | cons pair pairs ih =>
    rw [List.lookup_cons, List.filter_cons]
    cases hkey : key == pair.1 with
    | true => rw [if_pos (hkeep pair hkey), List.lookup_cons, hkey]
    | false =>
      split
      · rw [List.lookup_cons, hkey]
        exact ih
      · exact ih

variable {table : SlotTable α β}

theorem WellFormed.get?_eq_lookup [EquivBEq α] (h : table.WellFormed) (key : α) :
    table.get? key = table.toList.lookup key := by
  apply Option.ext
  intro value
  rw [h.get?_eq_some_iff, lookup_eq_some_iff (keys_eq_map ▸ h.keys_distinct)]

theorem WellFormed.contains_eq_lookup [EquivBEq α] (h : table.WellFormed) (key : α) :
    table.contains key = (table.toList.lookup key).isSome := by
  rw [contains, h.get?_eq_lookup]

theorem get?_eq_none_of_contains {key : α} (h : table.contains key = false) :
    table.get? key = none := by
  rw [contains, Option.isSome_eq_false_iff, Option.isNone_iff_eq_none] at h
  exact h

/-- An insertion gives its key a value unless there is one. -/
theorem WellFormed.get?_insertNew_or [EquivBEq α] (h : table.WellFormed) (first : α) (value : β)
    (key : α) :
    (table.insertNew first value).get? key =
      (table.get? key).or (if key == first then some value else none) := by
  cases hfirst : table.contains first with
  | true =>
    rw [h.insertNew_of_contains hfirst]
    by_cases hkey : (key == first) = true
    · have hcontains : table.contains key = true := by rw [h.contains_congr hkey, hfirst]
      obtain ⟨found, hfound⟩ := Option.isSome_iff_exists.1 hcontains
      rw [hfound, Option.some_or]
    · rw [if_neg hkey, Option.or_none]
  | false =>
    rw [h.get?_insertNew hfirst, BEq.comm]
    by_cases hkey : (key == first) = true
    · have hcontains : table.contains key = false := by rw [h.contains_congr hkey, hfirst]
      rw [get?_eq_none_of_contains hcontains, Option.none_or, if_pos hkey]
    · rw [if_neg hkey, if_neg hkey, Option.or_none]

/-- Of the pairs that are added one after another, the first with an equal key counts, unless the
    key had a value before. -/
theorem WellFormed.get?_foldl_insertNew [EquivBEq α] (h : table.WellFormed)
    (pairs : List (α × β)) (key : α) :
    (pairs.foldl (fun table pair => table.insertNew pair.1 pair.2) table).get? key =
      (table.get? key).or (pairs.lookup key) := by
  induction pairs generalizing table with
  | nil => rw [List.foldl_nil, List.lookup_nil, Option.or_none]
  | cons pair pairs ih =>
    rw [List.foldl_cons, ih (h.insertNew pair.1 pair.2), h.get?_insertNew_or, Option.or_assoc,
      List.lookup_cons]
    cases key == pair.1 with
    | true => rfl
    | false => rfl

/-- The table to which pairs were added one after another. -/
def ofPairs [Hashable α] (pairs : List (α × β)) : SlotTable α β :=
  pairs.foldl (fun table pair => table.insertNew pair.1 pair.2) empty

theorem WellFormed.ofPairs [Hashable α] [LawfulHashable α] [EquivBEq α] (pairs : List (α × β)) :
    (ofPairs pairs).WellFormed :=
  List.foldlRecOn pairs _ .empty fun _ h pair _ => h.insertNew pair.1 pair.2

theorem get?_ofPairs [Hashable α] [LawfulHashable α] [EquivBEq α] (pairs : List (α × β))
    (key : α) : (ofPairs pairs).get? key = pairs.lookup key := by
  rw [ofPairs, WellFormed.empty.get?_foldl_insertNew,
    get?_eq_none_of_contains (contains_empty key), Option.none_or]

end SlotTable

end Injection
