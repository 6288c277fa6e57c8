/-
  The plan of a valid graph is its recursive post-order walk.

  * `run_postOrder`: stepping through the path and the roots is this walk;
  * `Follows` lists what a plan has to be, and `ofGraph_follows` shows it of the
    plan of any valid graph.
-/
import Injection.Proofs.Cycles
import Injection.Proofs.MissingSearch
import Injection.Proofs.PostOrder

namespace Injection

open Relation

namespace Plan

variable {graph : Graph}

/-! ## The steps -/

/-- A key is entered as the recursive walk does. -/
theorem enter_cases (graph : Graph) (placed : KeySet) (path : List Frame) (key : Key) :
    (((key == .injector) = true ∨ placed.contains key = true) ∧
      enter graph placed path key = (placed, path)) ∨
    (¬ ((key == .injector) = true ∨ placed.contains key = true) ∧ graph.node? key = none ∧
      enter graph placed path key = (placed.add key, path)) ∨
    ∃ node, ¬ ((key == .injector) = true ∨ placed.contains key = true) ∧
      graph.node? key = some node ∧
      enter graph placed path key = (placed.add key, ⟨key, node, node.eager⟩ :: path) := by
  by_cases hpass : (key == .injector) = true ∨ placed.contains key = true
  · exact Or.inl ⟨hpass, by simp [enter, hpass]⟩
  · cases hnode : graph.node? key with
    | none => exact Or.inr (Or.inl ⟨hpass, rfl, by simp [enter, hpass, hnode]⟩)
    | some node => exact Or.inr (Or.inr ⟨node, hpass, rfl, by simp [enter, hpass, hnode]⟩)

/-- What the recursive walk still has to do: the pending dependencies of each key of the path, that
    key itself, and then the roots. -/
inductive Completes (graph : Graph) :
    List Key → List Frame → List Key → List Instruction → Prop
  | roots {seen seen' roots out} :
    PostOrder graph seen roots seen' out → Completes graph seen [] roots out
  | frame {seen inner key node pending rest roots before after} :
    PostOrder graph seen pending inner before → Completes graph inner rest roots after →
    Completes graph seen (⟨key, node, pending⟩ :: rest) roots
      (before ++ .ofNode key node :: after)

/-- To enter a key and go on is to walk through that key and go on. -/
theorem Completes.of_enter {placed : KeySet} {path : List Frame} {key : Key} {roots : List Key}
    {seen : List Key} (hseen : placed.Holds seen) {P : List Instruction → Prop}
    (h : ∀ seen', (enter graph placed path key).1.Holds seen' →
      ∃ out, Completes graph seen' (enter graph placed path key).2 roots out ∧ P out) :
    ∃ inner before after, PostOrder graph seen [key] inner before ∧
      Completes graph inner path roots after ∧ P (before ++ after) := by
  have hpassed : (key == .injector) = true ∨ placed.contains key = true ↔ Passed seen key := by
    rw [Passed, hseen.contains_iff]
  rcases enter_cases graph placed path key with
    ⟨hpass, henter⟩ | ⟨hnot, hnone, henter⟩ | ⟨node, hnot, hnode, henter⟩ <;>
      rw [henter] at h
  · obtain ⟨out, hout, hP⟩ := h seen hseen
    exact ⟨seen, [], out, .pass (hpassed.1 hpass) .done, hout, hP⟩
  · obtain ⟨out, hout, hP⟩ := h _ (hseen.add key)
    exact ⟨_, [], out, .absent (hpassed.not.1 hnot) hnone .done, hout, hP⟩
  · obtain ⟨out, hout, hP⟩ := h _ (hseen.add key)
    cases hout with
    | @frame _ inner _ _ _ _ _ before after hbefore hafter =>
      exact ⟨inner, before ++ [.ofNode key node], after,
        .visit (hpassed.not.1 hnot) hnode hbefore .done, hafter, by simpa using hP⟩

/-- From a state the walk ends with a list of instructions, which is that of the recursive walk. -/
def Finishes (graph : Graph) (instructions : List Instruction) (state : State) : Prop :=
  ∀ seen, state.placed.Holds seen → ∃ out, Completes graph seen state.path state.roots out ∧
    instructions = state.instructions.toList ++ out

theorem Finishes.of_step {instructions : List Instruction} (state : State)
    (h : Finishes graph instructions (step graph state)) :
    Finishes graph instructions state := by
  obtain ⟨placed, path, emitted, roots⟩ := state
  intro seen hseen
  rcases path with _ | ⟨⟨key, node, _ | ⟨d, pending⟩⟩, rest⟩
  · cases roots with
    | nil => exact h seen hseen
    | cons root roots =>
      obtain ⟨inner, before, after, hroot, hrest, hout⟩ := Completes.of_enter hseen h
      cases hrest with
      | roots hrest => exact ⟨_, .roots (hroot.cons hrest), hout⟩
  · obtain ⟨out, hrest, hout⟩ := h seen hseen
    exact ⟨_, .frame .done hrest, by simpa [step] using hout⟩
  · obtain ⟨inner, before, after, hd, hrest, hout⟩ := Completes.of_enter hseen h
    cases hrest with
    | frame hpending hrest =>
      exact ⟨_, .frame (hd.cons hpending) hrest, by simpa [step] using hout⟩

/-! ## The end of the walk -/

/-- What a walk still has to do: each root is taken once, each dependency followed once, and each
    key entered by one of these left once. -/
def State.work (graph : Graph) (state : State) : Nat :=
  2 * state.roots.length + state.path.length +
    2 * (state.path.map fun frame => frame.pending.length).sum +
    2 * Graph.unseen (fun key => (graph.eager key).length) state.placed.contains graph.keys

theorem work_start : (start graph).work graph ≤ 2 * (graph.size + graph.edgeCount) := by
  have hunseen := graph.unseen_eager_le (start graph).placed.contains
  simp only [State.work, start, Graph.size_eq_length_keys, List.length_nil, List.map_nil,
    List.sum_nil] at hunseen ⊢
  omega

theorem enter_wf {placed : KeySet} (h : placed.WellFormed) (path : List Frame) (key : Key) :
    (enter graph placed path key).1.WellFormed := by
  rcases enter_cases graph placed path key with
    ⟨-, henter⟩ | ⟨-, -, henter⟩ | ⟨node, -, -, henter⟩ <;> rw [henter]
  · exact h
  · exact h.insertNew key ()
  · exact h.insertNew key ()

theorem step_wf (state : State) (h : state.placed.WellFormed) :
    (step graph state).placed.WellFormed := by
  obtain ⟨placed, path, emitted, roots⟩ := state
  rcases path with _ | ⟨⟨key, node, _ | ⟨d, pending⟩⟩, rest⟩
  · cases roots with
    | nil => exact h
    | cons root roots => exact enter_wf h _ root
  · exact h
  · exact enter_wf h _ d

/-- To enter a key costs no more than to follow the dependency that leads there. -/
theorem enter_work {placed : KeySet} (h : placed.WellFormed) (path : List Frame) (key : Key)
    (emitted : Array Instruction) (roots : List Key) :
    (State.work graph ⟨(enter graph placed path key).1, (enter graph placed path key).2, emitted,
      roots⟩) ≤ State.work graph ⟨placed, path, emitted, roots⟩ + 1 := by
  rcases enter_cases graph placed path key with
    ⟨-, henter⟩ | ⟨hnot, -, henter⟩ | ⟨node, hnot, hnode, henter⟩ <;> rw [henter]
  · exact Nat.le_succ _
  · have hnew : placed.contains key = false := by simpa using fun hold => hnot (Or.inr hold)
    have hunseen := Graph.unseen_eager_insertNew graph h hnew ()
    simp only [State.work, KeySet.add]
    omega
  · have hnew : placed.contains key = false := by simpa using fun hold => hnot (Or.inr hold)
    have hunseen := Graph.unseen_eager_insertNew graph h hnew ()
    rw [Graph.eager_of_node? hnode] at hunseen
    simp only [State.work, KeySet.add, List.length_cons, List.map_cons, List.sum_cons]
    omega

theorem step_work_lt (state : State) (h : state.placed.WellFormed)
    (hdone : state.isDone = false) : (step graph state).work graph < state.work graph := by
  obtain ⟨placed, path, emitted, roots⟩ := state
  rcases path with _ | ⟨⟨key, node, _ | ⟨d, pending⟩⟩, rest⟩
  · cases roots with
    | nil => cases hdone
    | cons root roots =>
      refine Nat.lt_of_le_of_lt (enter_work h [] root emitted roots) ?_
      simp only [State.work, List.length_cons]
      omega
  · simp only [step, State.work, List.length_cons, List.map_cons, List.sum_cons]
    omega
  · refine Nat.lt_of_le_of_lt (enter_work h (⟨key, node, pending⟩ :: rest) d emitted roots) ?_
    simp only [State.work, List.length_cons, List.map_cons, List.sum_cons]
    omega

theorem run_isDone (graph : Graph) :
    (run graph (2 * (graph.size + graph.edgeCount)) (start graph)).isDone = true :=
  (Walk.run_spec step_wf step_work_lt .empty work_start).2

/-- The instructions of a plan are those of the recursive walk through the keys of its graph. -/
theorem run_postOrder (valid : ValidGraph) :
    ∃ seen, PostOrder valid.graph [] valid.graph.keys seen (ofGraph valid).instructions := by
  obtain ⟨hpath, hroots⟩ := (Bool.and_eq_true _ _).mp (run_isDone valid.graph)
  have hend : Finishes valid.graph (ofGraph valid).instructions
      (run valid.graph (2 * (valid.graph.size + valid.graph.edgeCount)) (start valid.graph)) := by
    intro seen _
    refine ⟨[], ?_, (List.append_nil _).symm⟩
    rw [List.isEmpty_iff.1 hpath, List.isEmpty_iff.1 hroots]
    exact .roots .done
  obtain ⟨out, h, hout⟩ := Walk.run_back Finishes.of_step hend [] .empty
  cases h with
  | roots h => exact ⟨_, by rwa [hout]⟩

end Plan

/-! ## Valid graphs -/

namespace ValidGraph

variable (valid : ValidGraph)

theorem acyclic : valid.graph.Acyclic := Graph.cycles_eq_nil_iff.1 valid.cycles_eq_nil

/-- All dependencies of a node are provided. -/
theorem provided {key : Key} {node : Graph.Node} (h : valid.graph.node? key = some node) :
    ∀ d ∈ node.dependencies, valid.graph.contains d = true :=
  Graph.missing_eq_nil_iff.1 valid.missing_eq_nil key node h

theorem needs_contains (a b : Key) (h : valid.graph.Needs a b) :
    valid.graph.contains b = true := by
  obtain ⟨node, hnode⟩ := Graph.contains_iff_node?.1 h.contains
  obtain ⟨d, hd, hsame⟩ := h
  rw [Graph.eager_of_node? hnode] at hd
  rw [← Graph.contains_congr hsame]
  exact valid.provided hnode d (List.mem_append_left _ hd)

end ValidGraph

/-! ## Results -/

namespace Plan

/-- What makes a plan one of a graph. -/
structure Follows (plan : Plan) (graph : Graph) : Prop where
  /-- A provided key other than the injector's has one instruction. -/
  once : ∀ key, graph.contains key = true → (key == .injector) = false →
    plan.instructions.countP (fun i => i.key == key) = 1
  /-- No other key has an instruction. -/
  only : ∀ i ∈ plan.instructions, graph.contains i.key = true ∧ (i.key == .injector) = false
  /-- An instruction has what the node of its key has. -/
  fields : ∀ i ∈ plan.instructions, ∃ node, graph.node? i.key = some node ∧
    i.dependencies = node.eager ∧ i.deferred = node.deferred ∧ i.scope = node.scope ∧
    i.origin = node.origin
  /-- Eager dependencies other than the injector have instructions at smaller positions. -/
  earlier : ∀ (position : Nat) (i : Instruction), plan.instructions[position]? = some i →
    ∀ d ∈ i.dependencies, (d == .injector) = false →
      ∃ position' < position, ∃ j, plan.instructions[position']? = some j ∧ (j.key == d) = true
  /-- The order is that of the recursive walk through all keys, in the order of the graph. -/
  walk : ∀ instructions, (∃ seen, PostOrder graph [] graph.keys seen instructions) ↔
    instructions = plan.instructions

variable (valid : ValidGraph)

theorem distinct_ofGraph :
    (ofGraph valid).instructions.Pairwise fun i j => (i.key == j.key) = false :=
  (run_postOrder valid).elim fun _ h => h.distinct

/-- Every provided key but the injector's has an instruction. -/
theorem exists_instruction {key : Key} (hkey : valid.graph.contains key = true)
    (hinjector : (key == .injector) = false) :
    ∃ i ∈ (ofGraph valid).instructions, (i.key == key) = true := by
  obtain ⟨seen, h⟩ := run_postOrder valid
  obtain ⟨root, hroot, hsame⟩ := Graph.contains_iff_keys.1 hkey
  rcases h.passed root hroot with hpass | ⟨k, hk, hsame'⟩
  · rw [BEq.trans (BEq.symm hsame) hpass] at hinjector
    cases hinjector
  · have hsame'' := BEq.trans hsame' hsame
    rcases h.entered k hk ((Graph.contains_congr hsame'').trans hkey) with hk | ⟨i, hi, rfl⟩
    · cases hk
    · exact ⟨i, hi, hsame''⟩

/-- An instruction is that of a node. -/
theorem instruction_ofGraph {i : Instruction} (hi : i ∈ (ofGraph valid).instructions) :
    (i.key == .injector) = false ∧
      ∃ node, valid.graph.node? i.key = some node ∧ i = .ofNode i.key node := by
  obtain ⟨seen, h⟩ := run_postOrder valid
  obtain ⟨hnot, -, hnode⟩ := h.instruction i hi
  exact ⟨by simpa using fun hinjector => hnot (Or.inl hinjector), hnode⟩

theorem ordered_ofGraph : Ordered (ofGraph valid).instructions := by
  obtain ⟨seen, h⟩ := run_postOrder valid
  exact h.ordered valid.acyclic valid.needs_contains (fun k hk => by cases hk) .nil

/-- The plan of a valid graph has an instruction for each provided key but the injector's, each
    after those of its eager dependencies, in the order of the recursive post-order walk. -/
theorem ofGraph_follows : (ofGraph valid).Follows valid.graph where
  once _ hkey hinjector :=
    countP_eq_one (distinct_ofGraph valid) (exists_instruction valid hkey hinjector)
  only i hi := by
    obtain ⟨hinjector, node, hnode, -⟩ := instruction_ofGraph valid hi
    exact ⟨Graph.contains_iff_node?.2 ⟨node, hnode⟩, hinjector⟩
  fields i hi := by
    obtain ⟨-, node, hnode, hi⟩ := instruction_ofGraph valid hi
    refine ⟨node, hnode, ?_⟩
    rw [hi]
    exact ⟨rfl, rfl, rfl, rfl⟩
  earlier position i hi d hd hinjector := by
    obtain ⟨hlt, hget⟩ := List.getElem?_eq_some_iff.1 hi
    have hsplit : (ofGraph valid).instructions = (ofGraph valid).instructions.take position ++
        i :: (ofGraph valid).instructions.drop (position + 1) := by
      rw [← hget, List.getElem_cons_drop, List.take_append_drop]
    obtain ⟨j, hj, hsame⟩ := ordered_ofGraph valid _ i _ hsplit d hd hinjector
    obtain ⟨position', hlt', rfl⟩ := List.mem_take_iff_getElem.1 hj
    have hbound := Nat.lt_min.1 hlt'
    exact ⟨position', hbound.1, _, List.getElem?_eq_getElem hbound.2, hsame⟩
  walk instructions := by
    obtain ⟨seen, h⟩ := run_postOrder valid
    refine ⟨fun ⟨_, h'⟩ => (h'.unique h).2, ?_⟩
    rintro rfl
    exact ⟨seen, h⟩

end Plan

end Injection
