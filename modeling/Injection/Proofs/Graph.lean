/-
  What a graph answers about its keys, and how long the walks over it take.

  * `Graph.Needs` is the relation of eager dependencies, on keys up to equality;
    a cycle is a closed walk of this relation (`Graph.Acyclic`);
  * `Graph.unseen` adds up a weight over the keys that a walk has not entered
    yet: with what else is still to be done it bounds the steps of the walk;
  * `Walk.run_spec`: an invariant of the steps holds at the end of a walk, and
    the end is reached when the steps suffice.
-/
import Injection.Graph.Basic
import Injection.Graph.Walk
import Injection.Key.Set
import Mathlib.Algebra.Order.BigOperators.Group.List
import Mathlib.Algebra.Order.Ring.Nat
import Mathlib.Logic.Function.Iterate
import Mathlib.Logic.Relation
import Mathlib.Tactic.ByContra

namespace Injection

open Relation

/-! ## Walks -/

/-- An invariant holds after a walk, and the walk is over after as many steps as a measure that
    every step lowers. -/
theorem Walk.run_spec {State : Type} {isDone : State → Bool} {step : State → State}
    {Inv : State → Prop} {measure : State → Nat} (hstep : ∀ s, Inv s → Inv (step s))
    (hlower : ∀ s, Inv s → isDone s = false → measure (step s) < measure s) :
    ∀ {n : Nat} {s : State}, Inv s → measure s ≤ n →
      Inv (run isDone step n s) ∧ isDone (run isDone step n s) = true
  | 0, s, hs, hn => by
    cases hdone : isDone s with
    | true => exact ⟨hs, hdone⟩
    | false =>
      have := hlower s hs hdone
      omega
  | n + 1, s, hs, hn => by
    rw [run]
    split
    · next hdone => exact ⟨hs, hdone⟩
    · next hdone =>
      have := hlower s hs (by simpa using hdone)
      exact run_spec hstep hlower (hstep s hs) (by omega)

/-- What holds of a state after a step holds of the state before, so it holds of the start of a
    walk if it holds of the end. -/
theorem Walk.run_back {State : Type} {isDone : State → Bool} {step : State → State}
    {P : State → Prop} (hback : ∀ s, P (step s) → P s) :
    ∀ {n : Nat} {s : State}, P (run isDone step n s) → P s
  | 0, _, h => h
  | n + 1, s, h => by
    rw [run] at h
    split at h
    · exact h
    · exact hback s (run_back hback h)

/-- A walk whose final states stay as they are takes the same step again and again. -/
theorem Walk.run_eq_iterate {State : Type} {isDone : State → Bool} {step : State → State}
    (hfinal : ∀ s, isDone s = true → step s = s) :
    ∀ (n : Nat) (s : State), run isDone step n s = step^[n] s
  | 0, _ => rfl
  | n + 1, s => by
    rw [run, Function.iterate_succ_apply]
    split
    · next hdone => rw [hfinal s hdone, Function.iterate_fixed (hfinal s hdone)]
    · exact run_eq_iterate hfinal n (step s)

/-! ## Sets of keys -/

/-- Whether a key equals one of a list. -/
def Key.Among (keys : List Key) (key : Key) : Prop := ∃ k ∈ keys, (k == key) = true

namespace Key.Among

variable {keys keys' : List Key} {key key' : Key}

theorem of_mem (h : key ∈ keys) : Among keys key := ⟨key, h, BEq.rfl⟩

theorem mono (h : Among keys key) (hsub : keys ⊆ keys') : Among keys' key :=
  let ⟨k, hk, hsame⟩ := h
  ⟨k, hsub hk, hsame⟩

theorem congr (h : Among keys key) (hsame : (key == key') = true) : Among keys key' :=
  let ⟨k, hk, hsame'⟩ := h
  ⟨k, hk, BEq.trans hsame' hsame⟩

theorem cons_iff : Among (key :: keys) key' ↔ (key == key') = true ∨ Among keys key' := by
  simp [Among]

end Key.Among

/-- A relation does not tell equal keys apart. -/
def Key.Respects (R : Key → Key → Prop) : Prop :=
  ∀ {a b a' b' : Key}, R a b → (a == a') = true → (b == b') = true → R a' b'

/-- Nor do walks of such a relation. -/
theorem Key.Respects.transGen {R : Key → Key → Prop} (hR : Respects R) :
    Respects (TransGen R) := by
  intro a b a' b' h ha hb
  induction h generalizing b' with
  | single h => exact .single (hR h ha hb)
  | tail _ h ih => exact .tail (ih BEq.rfl) (hR h BEq.rfl hb)

/-- Of things with pairwise different keys one at most has a given key. -/
theorem countP_eq_one {α : Type} {f : α → Key} {as : List α} {key : Key}
    (hdistinct : as.Pairwise fun a b => (f a == f b) = false)
    (h : ∃ a ∈ as, (f a == key) = true) : as.countP (fun a => f a == key) = 1 := by
  induction as with
  | nil => obtain ⟨_, ha, -⟩ := h; cases ha
  | cons a as ih =>
    obtain ⟨hother, hdistinct⟩ := List.pairwise_cons.1 hdistinct
    by_cases hsame : (f a == key) = true
    · rw [List.countP_cons_of_pos (p := fun a => f a == key) hsame, Nat.add_eq_right,
        List.countP_eq_zero]
      intro b hb hsame'
      have := hother b hb
      rw [BEq.trans hsame (BEq.symm hsame')] at this
      cases this
    · rw [List.countP_cons_of_neg (p := fun a => f a == key) hsame]
      obtain ⟨b, hb, hsame'⟩ := h
      rcases List.mem_cons.1 hb with rfl | hb
      · exact absurd hsame' hsame
      · exact ih hdistinct ⟨b, hb, hsame'⟩

namespace KeySet

variable {set : KeySet}

theorem contains_add (h : set.WellFormed) (key other : Key) :
    (set.add key).contains other = (set.contains other || key == other) :=
  h.contains_insertNew key () other

theorem keys_add (h : set.WellFormed) {key : Key} (hkey : set.contains key = false) :
    (set.add key).keys = set.keys ++ [key] := by
  rw [SlotTable.keys_eq_map, add, h.toList_insertNew hkey, List.map_append, SlotTable.keys_eq_map]
  rfl

/-- The keys of a set are, up to equality, those of a list. -/
structure Holds (set : KeySet) (keys : List Key) : Prop where
  wf : set.WellFormed
  contains_iff : ∀ {key}, set.contains key = true ↔ Key.Among keys key

theorem Holds.empty : Holds .empty [] where
  wf := .empty
  contains_iff := by simp [Key.Among]

theorem Holds.add {keys : List Key} (h : set.Holds keys) (key : Key) :
    (set.add key).Holds (key :: keys) where
  wf := h.wf.insertNew key ()
  contains_iff := by
    intro other
    rw [contains_add h.wf, Bool.or_eq_true, h.contains_iff, Key.Among.cons_iff, or_comm]

end KeySet

/-! ## Keys and nodes -/

namespace Graph

variable {graph : Graph}

theorem node?_congr {a b : Key} (h : (a == b) = true) : graph.node? a = graph.node? b :=
  graph.wellFormed.get?_congr h

theorem contains_congr {a b : Key} (h : (a == b) = true) : graph.contains a = graph.contains b :=
  graph.wellFormed.contains_congr h

theorem eager_congr {a b : Key} (h : (a == b) = true) : graph.eager a = graph.eager b := by
  rw [eager, eager, node?_congr h]

theorem contains_iff_node? {key : Key} :
    graph.contains key = true ↔ ∃ node, graph.node? key = some node :=
  Option.isSome_iff_exists

theorem contains_iff_keys {key : Key} : graph.contains key = true ↔ Key.Among graph.keys key :=
  graph.wellFormed.contains_iff

theorem contains_of_mem_keys {key : Key} (h : key ∈ graph.keys) : graph.contains key = true :=
  contains_iff_keys.2 ⟨key, h, BEq.rfl⟩

theorem node?_eq_some_iff {key : Key} {node : Node} :
    graph.node? key = some node ↔
      ∃ key', (key', node) ∈ graph.nodes.toList ∧ (key' == key) = true :=
  graph.wellFormed.get?_eq_some_iff

theorem eager_of_node? {key : Key} {node : Node} (h : graph.node? key = some node) :
    graph.eager key = node.eager := by
  rw [eager, h]

theorem eager_of_not_contains {key : Key} (h : graph.contains key = false) :
    graph.eager key = [] := by
  have hnone : graph.node? key = none := by simpa [contains, node?, SlotTable.contains] using h
  rw [eager, hnone]

/-- The keys of a graph are pairwise different. -/
theorem keys_distinct : graph.keys.Pairwise fun a b => (a == b) = false :=
  graph.wellFormed.keys_distinct

/-! ## Eager dependencies as a relation -/

/-- To make the instance of `a` takes that of `b`. -/
def Needs (graph : Graph) (a b : Key) : Prop := ∃ d ∈ graph.eager a, (d == b) = true

theorem Needs.of_mem {a b : Key} (h : b ∈ graph.eager a) : graph.Needs a b := ⟨b, h, BEq.rfl⟩

theorem Needs.congr {a b a' b' : Key} (h : graph.Needs a b) (ha : (a == a') = true)
    (hb : (b == b') = true) : graph.Needs a' b' := by
  obtain ⟨d, hd, hdb⟩ := h
  exact ⟨d, eager_congr ha ▸ hd, BEq.trans hdb hb⟩

theorem Needs.contains {a b : Key} (h : graph.Needs a b) : graph.contains a = true := by
  obtain ⟨d, hd, -⟩ := h
  by_contra hnot
  rw [eager_of_not_contains (by simpa using hnot)] at hd
  cases hd

/-- A walk of eager dependencies starts at any key equal to its first one. -/
theorem Needs.trans_congr_left {a a' b : Key} (h : TransGen graph.Needs a b)
    (ha : (a == a') = true) : TransGen graph.Needs a' b :=
  Key.Respects.transGen Needs.congr h ha BEq.rfl

/-- A walk of eager dependencies ends at any key equal to its last one. -/
theorem Needs.trans_congr_right {a b b' : Key} (h : TransGen graph.Needs a b)
    (hb : (b == b') = true) : TransGen graph.Needs a b' :=
  Key.Respects.transGen Needs.congr h BEq.rfl hb

theorem Needs.trans_contains {a b : Key} (h : TransGen graph.Needs a b) :
    graph.contains a = true := by
  obtain ⟨c, h, -⟩ := TransGen.head'_iff.1 h
  exact h.contains

/-- No key needs itself for its own construction. -/
def Acyclic (graph : Graph) : Prop := ∀ key, ¬ TransGen graph.Needs key key

/-- To make the instance of `a` takes that of `b`, and both keys are among some. -/
def NeedsWithin (graph : Graph) (keys : List Key) (a b : Key) : Prop :=
  graph.Needs a b ∧ Key.Among keys a ∧ Key.Among keys b

/-- The need of `a` for `b` is part of a cycle whose keys are all among some. -/
def Exposed (graph : Graph) (keys : List Key) (a b : Key) : Prop :=
  graph.NeedsWithin keys a b ∧ TransGen (graph.NeedsWithin keys) b a

theorem NeedsWithin.congr {keys : List Key} {a b a' b' : Key} (h : graph.NeedsWithin keys a b)
    (ha : (a == a') = true) (hb : (b == b') = true) : graph.NeedsWithin keys a' b' :=
  ⟨h.1.congr ha hb, h.2.1.congr ha, h.2.2.congr hb⟩

theorem NeedsWithin.mono {keys keys' : List Key} {a b : Key} (h : graph.NeedsWithin keys a b)
    (hsub : keys ⊆ keys') : graph.NeedsWithin keys' a b :=
  ⟨h.1, h.2.1.mono hsub, h.2.2.mono hsub⟩

theorem Exposed.congr {keys : List Key} {a b a' b' : Key} (h : graph.Exposed keys a b)
    (ha : (a == a') = true) (hb : (b == b') = true) : graph.Exposed keys a' b' :=
  ⟨h.1.congr ha hb, Key.Respects.transGen NeedsWithin.congr h.2 hb ha⟩

theorem Exposed.mono {keys keys' : List Key} {a b : Key} (h : graph.Exposed keys a b)
    (hsub : keys ⊆ keys') : graph.Exposed keys' a b :=
  ⟨h.1.mono hsub, TransGen.mono (fun _ _ hneeds => hneeds.mono hsub) _ _ h.2⟩

/-! ## Weights of keys -/

/-- The weight of the keys of a list that were not seen. -/
def unseen (weight : Key → Nat) (seen : Key → Bool) (keys : List Key) : Nat :=
  (keys.map fun key => if seen key then 0 else weight key).sum

theorem unseen_le (weight : Key → Nat) (seen : Key → Bool) (keys : List Key) :
    unseen weight seen keys ≤ (keys.map weight).sum := by
  refine List.sum_le_sum fun key _ => ?_
  split <;> omega

/-- To see one more key takes its weight away, if it is the weight of a key of the list. -/
theorem unseen_add {weight : Key → Nat} {seen : Key → Bool} {key : Key}
    (hweight : ∀ a b : Key, (a == b) = true → weight a = weight b)
    (hseen : ∀ a b : Key, (a == b) = true → seen a = seen b) (hnew : seen key = false) :
    ∀ {keys : List Key}, ((∀ k ∈ keys, (k == key) = false) → weight key = 0) →
      unseen weight (fun other => seen other || key == other) keys + weight key ≤
        unseen weight seen keys
  | [], hzero => by simp [hzero, unseen]
  | k :: keys, hzero => by
    cases hsame : k == key with
    | true =>
      have hle : unseen weight (fun other => seen other || key == other) keys ≤
          unseen weight seen keys := by
        refine List.sum_le_sum fun other _ => ?_
        by_cases hother : seen other = true <;> by_cases heq : (key == other) = true <;>
          simp [hother, heq]
      have hkseen : seen k = false := (hseen k key hsame).trans hnew
      simp only [unseen] at hle ⊢
      simp only [List.map_cons, List.sum_cons, hkseen, BEq.symm hsame, hweight k key hsame,
        Bool.or_true, Bool.false_eq_true, if_true, if_false]
      omega
    | false =>
      have hne : (key == k) = false := by rw [BEq.comm]; exact hsame
      have ih := unseen_add hweight hseen hnew fun hall =>
        hzero fun k' hk' => by
          rcases List.mem_cons.1 hk' with rfl | hk'
          · exact hsame
          · exact hall k' hk'
      simp only [unseen] at ih ⊢
      simp only [List.map_cons, List.sum_cons, hne, Bool.or_false]
      omega

/-- To add a key to a table of the keys seen takes its weight away, if only keys of the graph have
    a weight. -/
theorem unseen_insertNew {weight : Key → Nat} {α : Type} {table : SlotTable Key α}
    (h : table.WellFormed) (hweight : ∀ a b : Key, (a == b) = true → weight a = weight b)
    (hzero : ∀ key, graph.contains key = false → weight key = 0) {key : Key}
    (hnew : table.contains key = false) (value : α) :
    unseen weight (table.insertNew key value).contains graph.keys + weight key ≤
      unseen weight table.contains graph.keys := by
  rw [funext (h.contains_insertNew key value)]
  refine unseen_add hweight (fun _ _ => h.contains_congr) hnew fun hnone => hzero key ?_
  rw [← Bool.not_eq_true, contains_iff_keys]
  rintro ⟨k, hk, hsame⟩
  rw [hnone k hk] at hsame
  cases hsame

/-- To add a key to a table of the keys seen takes the number of its eager dependencies away. -/
theorem unseen_eager_insertNew (graph : Graph) {α : Type} {table : SlotTable Key α}
    (h : table.WellFormed) {key : Key} (hnew : table.contains key = false) (value : α) :
    unseen (fun key => (graph.eager key).length) (table.insertNew key value).contains graph.keys +
        (graph.eager key).length ≤
      unseen (fun key => (graph.eager key).length) table.contains graph.keys :=
  unseen_insertNew h (fun a b hab => by rw [eager_congr hab])
    (fun key hkey => by rw [eager_of_not_contains hkey, List.length_nil]) hnew value

/-- Weights of keys that come from their nodes add up over the nodes. -/
theorem sum_keys_eq {weight : Key → Nat} {size : Node → Nat}
    (h : ∀ key node, graph.node? key = some node → weight key = size node) :
    (graph.keys.map weight).sum = (graph.nodes.values.map size).sum := by
  have hlist : ∀ pairs : List (Key × Node), (∀ pair ∈ pairs, pair ∈ graph.nodes.toList) →
      ((pairs.map Prod.fst).map weight).sum = ((pairs.map Prod.snd).map size).sum := by
    intro pairs
    induction pairs with
    | nil => intro _; rfl
    | cons pair pairs ih =>
      intro hmem
      have hnode : graph.node? pair.1 = some pair.2 :=
        node?_eq_some_iff.2 ⟨pair.1, hmem pair (by simp), BEq.rfl⟩
      simp only [List.map_cons, List.sum_cons, h _ _ hnode,
        ih fun p hp => hmem p (List.mem_cons_of_mem _ hp)]
  have := hlist graph.nodes.toList fun _ hp => hp
  simpa [SlotTable.toList, keys, SlotTable.keys, SlotTable.values, Function.comp_def] using this

/-- The eager dependencies of all keys are no more than the edges of the graph. -/
theorem sum_eager_le (graph : Graph) :
    (graph.keys.map fun key => (graph.eager key).length).sum ≤ graph.edgeCount := by
  have hsize : ∀ key node, graph.node? key = some node →
      (graph.eager key).length = node.eager.length := fun key node h => by
    rw [eager_of_node? h]
  rw [sum_keys_eq hsize, edgeCount, List.length_flatMap]
  refine List.sum_le_sum fun node _ => ?_
  simp [Node.dependencies]

theorem unseen_eager_le (graph : Graph) (seen : Key → Bool) :
    unseen (fun key => (graph.eager key).length) seen graph.keys ≤ graph.edgeCount :=
  (unseen_le _ seen graph.keys).trans (sum_eager_le graph)

theorem size_eq_length_keys : graph.size = graph.keys.length := by
  simp [size, keys, SlotTable.size, SlotTable.keys]

end Graph

end Injection
