/-
  What insertion does to maps from names.

  * `NameMap.insert_map`, `NameMap.overlay_map`: values may be changed before an
    insertion or after it;
  * `NameMap.Increasing`: the names of a map increase, which insertion keeps;
  * `NameMap.overlay_insert`: to lay a pair over a map that holds it already
    changes nothing;
  * `NameMap.get?_overlay`, `NameMap.get?_ofList`: what an overlay answers, and
    what a list of pairs of which later ones replace earlier ones.
-/
import Injection.Collection.NameMap

namespace Injection

namespace NameMap

variable {α β : Type}

/-! ## Changed values -/

theorem insert_map (f : α → β) (name : String) (value : α) (map : NameMap α) :
    insert name (f value) (map.map (Prod.map id f)) =
      (insert name value map).map (Prod.map id f) := by
  induction map with
  | nil => rfl
  | cons pair rest ih =>
    obtain ⟨other, old⟩ := pair
    simp only [List.map_cons, Prod.map, id, insert]
    split
    · rfl
    · split
      · rfl
      · exact congrArg _ ih

theorem overlay_map (f : α → β) (lower upper : NameMap α) :
    overlay (lower.map (Prod.map id f)) (upper.map (Prod.map id f)) =
      (overlay lower upper).map (Prod.map id f) := by
  induction upper generalizing lower with
  | nil => rfl
  | cons pair rest ih =>
    simp only [overlay, List.map_cons, List.foldl_cons, Prod.map, id] at ih ⊢
    rw [insert_map]
    exact ih (insert pair.1 pair.2 lower)

theorem get?_map (f : α → β) (map : NameMap α) (name : String) :
    get? (map.map (Prod.map id f)) name = (get? map name).map f := by
  induction map with
  | nil => rfl
  | cons pair rest ih =>
    obtain ⟨other, old⟩ := pair
    unfold get? at ih ⊢
    simp only [List.map_cons, Prod.map, id, List.lookup_cons, ih]
    split <;> rfl

/-! ## Pairs of a map -/

theorem mem_insert {pair : String × α} {name : String} {value : α} {map : NameMap α}
    (h : pair ∈ insert name value map) : pair = (name, value) ∨ pair ∈ map := by
  induction map with
  | nil => simpa [insert] using h
  | cons first rest ih =>
    obtain ⟨other, old⟩ := first
    unfold insert at h
    split at h
    · simpa using h
    · split at h
      · exact (List.mem_cons.1 h).imp_right (List.mem_cons_of_mem _)
      · rcases List.mem_cons.1 h with rfl | h
        · exact .inr List.mem_cons_self
        · exact (ih h).imp_right (List.mem_cons_of_mem _)

theorem mem_overlay {pair : String × α} {lower upper : NameMap α}
    (h : pair ∈ overlay lower upper) : pair ∈ lower ∨ pair ∈ upper := by
  induction upper generalizing lower with
  | nil => exact .inl h
  | cons first rest ih =>
    rcases ih h with h | h
    · rcases mem_insert h with rfl | h
      · exact .inr List.mem_cons_self
      · exact .inl h
    · exact .inr (List.mem_cons_of_mem _ h)

theorem mem_ofList {pair : String × α} {pairs : List (String × α)} (h : pair ∈ ofList pairs) :
    pair ∈ pairs :=
  (mem_overlay h).resolve_left List.not_mem_nil

theorem get?_insert_of_ne {name other : String} (h : other ≠ name) (value : α) (map : NameMap α) :
    get? (insert name value map) other = get? map other := by
  have hother : (other == name) = false := by simpa using h
  induction map with
  | nil => simp [insert, get?, h]
  | cons pair rest ih =>
    obtain ⟨key, old⟩ := pair
    unfold get? at ih ⊢
    unfold insert
    split
    · simp [List.lookup_cons, hother]
    · split
      · next hsame => simp [List.lookup_cons, hother, ← hsame]
      · simp [List.lookup_cons, ih]

theorem get?_cons (other : String) (value : α) (rest : NameMap α) (name : String) :
    get? ((other, value) :: rest) name = if name = other then some value else get? rest name := by
  by_cases h : name = other
  · simp [get?, h]
  · have hne : (name == other) = false := by simpa using h
    simp [get?, List.lookup_cons, h, hne]

theorem get?_insert_self (name : String) (value : α) (map : NameMap α) :
    get? (insert name value map) name = some value := by
  induction map with
  | nil => simp [insert, get?_cons]
  | cons pair rest ih =>
    obtain ⟨other, old⟩ := pair
    unfold insert
    split
    · simp [get?_cons]
    · split
      · simp [get?_cons]
      · next hne => simp [get?_cons, hne, ih]

theorem get?_insert (name other : String) (value : α) (map : NameMap α) :
    get? (insert name value map) other = if other = name then some value else get? map other := by
  by_cases h : other = name
  · rw [if_pos h, h, get?_insert_self]
  · rw [if_neg h, get?_insert_of_ne h]

/-- Overlays are read in the upper map, the last pair of a name first, and where that has no value
    in the lower one. -/
theorem get?_overlay (lower upper : NameMap α) (name : String) :
    get? (overlay lower upper) name = (List.lookup name upper.reverse).or (get? lower name) := by
  induction upper generalizing lower with
  | nil => simp [overlay]
  | cons pair rest ih =>
    obtain ⟨other, given⟩ := pair
    have hstep : get? (overlay lower ((other, given) :: rest)) name =
        (List.lookup name rest.reverse).or (get? (insert other given lower) name) :=
      ih (insert other given lower)
    rw [hstep, get?_insert, List.reverse_cons, List.lookup_append]
    by_cases hsame : name = other
    · simp [hsame]
    · have hne : (name == other) = false := by simpa using hsame
      simp [hsame, List.lookup_cons, hne]

/-- Of several pairs of a name the last one counts. -/
theorem get?_ofList (pairs : List (String × α)) (name : String) :
    get? (ofList pairs) name = List.lookup name pairs.reverse := by
  rw [ofList, get?_overlay]
  simp [get?, empty]

/-! ## Increasing names -/

theorem Increasing.insert {map : NameMap α} (h : map.Increasing) (name : String) (value : α) :
    Increasing (insert name value map) := by
  induction map with
  | nil => simp [Increasing, NameMap.insert]
  | cons pair rest ih =>
    obtain ⟨other, old⟩ := pair
    obtain ⟨hother, hrest⟩ := List.pairwise_cons.1 h
    unfold NameMap.insert
    split
    · next hlt =>
      refine List.pairwise_cons.2 ⟨fun p hp => ?_, h⟩
      rcases List.mem_cons.1 hp with rfl | hp
      · exact hlt
      · exact String.lt_trans hlt (hother p hp)
    · next hle =>
      split
      · next hsame =>
        subst hsame
        exact List.pairwise_cons.2 ⟨hother, hrest⟩
      · next hne =>
        refine List.pairwise_cons.2 ⟨fun p hp => ?_, ih hrest⟩
        rcases mem_insert hp with rfl | hp
        · exact Std.lt_of_le_of_ne (String.not_lt.1 hle) (Ne.symm hne)
        · exact hother p hp

theorem Increasing.overlay {lower : NameMap α} (h : lower.Increasing) (upper : NameMap α) :
    Increasing (overlay lower upper) := by
  induction upper generalizing lower with
  | nil => exact h
  | cons pair rest ih => exact ih (h.insert pair.1 pair.2)

theorem ofList_increasing (pairs : List (String × α)) : Increasing (ofList pairs) :=
  Increasing.overlay (show Increasing empty from .nil) pairs

/-- To give a name the value that it has changes nothing. -/
theorem Increasing.insert_eq_self {map : NameMap α} (h : map.Increasing) {name : String}
    {value : α} (hget : map.get? name = some value) : NameMap.insert name value map = map := by
  induction map with
  | nil => cases hget
  | cons pair rest ih =>
    obtain ⟨other, old⟩ := pair
    obtain ⟨hother, hrest⟩ := List.pairwise_cons.1 h
    rw [get?, List.lookup_cons] at hget
    split at hget
    · next hsame =>
      obtain rfl : name = other := by simpa using hsame
      obtain rfl := Option.some.inj hget
      simp [NameMap.insert]
    · next hne =>
      -- the pair stands behind the first one, whose name is smaller
      obtain ⟨before, after, hsplit, -⟩ := List.lookup_eq_some_iff.1 hget
      have hlt : other < name := hother (name, value) (by simp [hsplit])
      have hne : name ≠ other := by simpa using hne
      simp [NameMap.insert, String.lt_asymm hlt, hne, ih hrest hget]

/-- To lay a pair over a map that holds it, along with pairs of other names, changes nothing. -/
theorem Increasing.overlay_insert {lower : NameMap α} (h : lower.Increasing) {upper : NameMap α}
    {name : String} {value : α} (hlower : lower.get? name = some value)
    (hupper : upper.get? name = none) :
    NameMap.overlay lower (NameMap.insert name value upper) = NameMap.overlay lower upper := by
  induction upper generalizing lower with
  | nil => exact h.insert_eq_self hlower
  | cons pair rest ih =>
    obtain ⟨other, given⟩ := pair
    rw [get?, List.lookup_cons] at hupper
    split at hupper
    · cases hupper
    · next hne =>
      have hne : name ≠ other := by simpa using hne
      rw [NameMap.insert, if_neg hne]
      split
      · exact congrArg (NameMap.overlay · ((other, given) :: rest)) (h.insert_eq_self hlower)
      · exact ih (h.insert other given) ((get?_insert_of_ne hne given lower).trans hlower) hupper

/-- The names after the first one are others. -/
theorem Increasing.get?_tail {name : String} {value : α} {rest : NameMap α}
    (h : Increasing ((name, value) :: rest)) : get? rest name = none := by
  obtain ⟨hother, -⟩ := List.pairwise_cons.1 h
  rw [get?, List.lookup_eq_none_iff]
  intro pair hpair
  simpa using String.ne_of_lt (hother pair hpair)

/-- A pair is in a map exactly if the map answers with it. -/
theorem Increasing.get?_eq_some_iff {map : NameMap α} (h : map.Increasing) {name : String}
    {value : α} : get? map name = some value ↔ (name, value) ∈ map := by
  induction map with
  | nil => simp [get?]
  | cons pair rest ih =>
    obtain ⟨other, old⟩ := pair
    rw [get?_cons, List.mem_cons, ← ih (List.pairwise_cons.1 h).2, Prod.mk.injEq]
    by_cases hsame : name = other
    · subst hsame
      simp [h.get?_tail, eq_comm]
    · simp [hsame]

/-- In a map every pair of a name is the last one. -/
theorem Increasing.lookup_reverse {map : NameMap α} (h : map.Increasing) (name : String) :
    List.lookup name map.reverse = get? map name := by
  induction map with
  | nil => rfl
  | cons pair rest ih =>
    obtain ⟨other, value⟩ := pair
    rw [List.reverse_cons, List.lookup_append, ih (List.pairwise_cons.1 h).2, get?_cons]
    by_cases hsame : name = other
    · subst hsame
      simp [h.get?_tail]
    · have hne : (name == other) = false := by simpa using hsame
      simp [hsame, List.lookup_cons, hne]

theorem Increasing.map {map : NameMap α} (h : map.Increasing) (f : α → β) :
    Increasing (map.map (Prod.map id f)) := by
  unfold Increasing at h ⊢
  rw [List.pairwise_map]
  exact h

end NameMap

end Injection
