/-
  The search for missing dependencies finds all of them.

  * `PreOrder graph seen todo seen' out` is the recursive search: from the keys
    in `seen`, the search through `todo` leads to `seen'` and reports `out`;
  * `PreOrder.unique`, `PreOrder.distinct`: the search has one outcome, and no
    key is reported twice;
  * `run_preOrder`: stepping through a list of pending keys is this search;
  * `missing_eq_nil_iff`: nothing is reported exactly if every dependency of
    every node is provided;
  * `missing_follows`: the search ends, and reports what is needed and not
    provided, each key once, in the order of the recursive search.
-/
import Injection.Graph.Missing
import Injection.Proofs.Graph

namespace Injection

namespace Graph

namespace MissingSearch

variable {graph : Graph}

/-! ## The recursive search -/

/-- The dependencies of a node, each with the key that needs it. -/
def needed (key : Key) (node : Node) : List (Key × Key) := node.dependencies.map fun d => (d, key)

/-- The recursive search through a list of keys, each with the key that needs it. -/
inductive PreOrder (graph : Graph) :
    List Key → List (Key × Key) → List Key → List MissingKey → Prop
  | done {seen} : PreOrder graph seen [] seen []
  | pass {seen seen' key requiredBy todo out} :
    Key.Among seen key → PreOrder graph seen todo seen' out →
    PreOrder graph seen ((key, requiredBy) :: todo) seen' out
  | report {seen seen' key requiredBy todo out} :
    ¬ Key.Among seen key → graph.node? key = none → PreOrder graph (key :: seen) todo seen' out →
    PreOrder graph seen ((key, requiredBy) :: todo) seen' (⟨key, requiredBy⟩ :: out)
  | visit {seen inner seen' key requiredBy todo node below after} :
    ¬ Key.Among seen key → graph.node? key = some node →
    PreOrder graph (key :: seen) (needed key node) inner below →
    PreOrder graph inner todo seen' after →
    PreOrder graph seen ((key, requiredBy) :: todo) seen' (below ++ after)

namespace PreOrder

variable {seen seen' : List Key} {todo : List (Key × Key)} {out : List MissingKey}

/-- A search through two lists, one after the other. -/
theorem split {first rest : List (Key × Key)} :
    PreOrder graph seen (first ++ rest) seen' out →
      ∃ inner below after, PreOrder graph seen first inner below ∧
        PreOrder graph inner rest seen' after ∧ out = below ++ after := by
  induction first generalizing seen out with
  | nil => exact fun h => ⟨seen, [], out, .done, h, rfl⟩
  | cons pair first ih =>
    intro h
    cases h with
    | pass hpass h =>
      obtain ⟨inner, below, after, hfirst, hrest, rfl⟩ := ih h
      exact ⟨inner, below, after, .pass hpass hfirst, hrest, rfl⟩
    | report hnot hnone h =>
      obtain ⟨inner, below, after, hfirst, hrest, rfl⟩ := ih h
      exact ⟨inner, _, after, .report hnot hnone hfirst, hrest, rfl⟩
    | visit hnot hnode hbelow h =>
      obtain ⟨inner, below, after, hfirst, hrest, rfl⟩ := ih h
      exact ⟨inner, _, after, .visit hnot hnode hbelow hfirst, hrest,
        (List.append_assoc _ _ _).symm⟩

theorem subset (h : PreOrder graph seen todo seen' out) : seen ⊆ seen' := by
  induction h with
  | done => exact List.Subset.refl _
  | pass _ _ ih => exact ih
  | report _ _ _ ih => exact List.Subset.trans (List.subset_cons_self _ _) ih
  | visit _ _ _ _ ihbelow ihafter =>
    exact List.Subset.trans (List.Subset.trans (List.subset_cons_self _ _) ihbelow) ihafter

/-- Every key that was searched through is seen from then on. -/
theorem seen_todo (h : PreOrder graph seen todo seen' out) :
    ∀ pair ∈ todo, Key.Among seen' pair.1 := by
  induction h with
  | done => exact fun _ hpair => by cases hpair
  | pass hpass h ih => exact List.forall_mem_cons.2 ⟨hpass.mono h.subset, ih⟩
  | report _ _ h ih =>
    exact List.forall_mem_cons.2 ⟨.of_mem (h.subset List.mem_cons_self), ih⟩
  | visit _ _ hbelow hafter _ ihafter =>
    have hentered := hafter.subset (hbelow.subset List.mem_cons_self)
    exact List.forall_mem_cons.2 ⟨.of_mem hentered, ihafter⟩

/-- A key that was seen on the way is provided, together with all its dependencies, or reported. -/
theorem entered (h : PreOrder graph seen todo seen' out) :
    ∀ key ∈ seen', key ∈ seen ∨
      (∃ node, graph.node? key = some node ∧ ∀ d ∈ node.dependencies, Key.Among seen' d) ∨
      ∃ entry ∈ out, entry.key = key := by
  induction h with
  | done => exact fun _ hkey => Or.inl hkey
  | pass _ _ ih => exact ih
  | report _ _ _ ih =>
    intro key hkey
    rcases ih key hkey with hkey | hnode | ⟨entry, hentry, hsame⟩
    · rcases List.mem_cons.1 hkey with rfl | hkey
      · exact Or.inr (Or.inr ⟨_, List.mem_cons_self, rfl⟩)
      · exact Or.inl hkey
    · exact Or.inr (Or.inl hnode)
    · exact Or.inr (Or.inr ⟨entry, List.mem_cons_of_mem _ hentry, hsame⟩)
  | visit _ hnode hbelow hafter ihbelow ihafter =>
    intro key hkey
    rcases ihafter key hkey with hkey | hnode' | ⟨entry, hentry, hsame⟩
    · rcases ihbelow key hkey with hkey | ⟨node, hnode', hdeps⟩ | ⟨entry, hentry, hsame⟩
      · rcases List.mem_cons.1 hkey with rfl | hkey
        · refine Or.inr (Or.inl ⟨_, hnode, fun d hd => ?_⟩)
          exact (hbelow.seen_todo (d, _) (List.mem_map_of_mem hd)).mono hafter.subset
        · exact Or.inl hkey
      · exact Or.inr (Or.inl ⟨node, hnode', fun d hd => (hdeps d hd).mono hafter.subset⟩)
      · exact Or.inr (Or.inr ⟨entry, List.mem_append_left _ hentry, hsame⟩)
    · exact Or.inr (Or.inl hnode')
    · exact Or.inr (Or.inr ⟨entry, List.mem_append_right _ hentry, hsame⟩)

/-- What is reported is not provided, and is searched for or needed by a provided key. -/
theorem reported (h : PreOrder graph seen todo seen' out) :
    ∀ entry ∈ out, graph.node? entry.key = none ∧
      ((entry.key, entry.requiredBy) ∈ todo ∨
        ∃ node, graph.node? entry.requiredBy = some node ∧ entry.key ∈ node.dependencies) := by
  induction h with
  | done => exact fun _ hentry => by cases hentry
  | pass _ _ ih => exact fun entry hentry =>
      (ih entry hentry).imp_right (Or.imp_left (List.mem_cons_of_mem _))
  | report _ hnone _ ih =>
    refine List.forall_mem_cons.2 ⟨⟨hnone, Or.inl List.mem_cons_self⟩, fun entry hentry => ?_⟩
    exact (ih entry hentry).imp_right (Or.imp_left (List.mem_cons_of_mem _))
  | visit _ hnode _ _ ihbelow ihafter =>
    intro entry hentry
    rcases List.mem_append.1 hentry with hentry | hentry
    · obtain ⟨hnone, hneeded⟩ := ihbelow entry hentry
      refine ⟨hnone, Or.inr (hneeded.elim (fun hmem => ?_) id)⟩
      obtain ⟨d, hd, hpair⟩ := List.mem_map.1 hmem
      obtain ⟨rfl, rfl⟩ := Prod.mk.inj hpair
      exact ⟨_, hnode, hd⟩
    · exact (ihafter entry hentry).imp_right (Or.imp_left (List.mem_cons_of_mem _))

/-- What is reported was not seen before, and is seen from then on. -/
theorem fresh (h : PreOrder graph seen todo seen' out) :
    ∀ entry ∈ out, ¬ Key.Among seen entry.key ∧ entry.key ∈ seen' := by
  have hbefore : ∀ {key : Key} {seen : List Key} {k : Key},
      ¬ Key.Among (key :: seen) k → ¬ Key.Among seen k :=
    fun hnot hseen => hnot (hseen.mono (List.subset_cons_self _ _))
  induction h with
  | done => exact fun _ hentry => by cases hentry
  | pass _ _ ih => exact ih
  | report hnot _ h ih =>
    refine List.forall_mem_cons.2 ⟨⟨hnot, h.subset List.mem_cons_self⟩, fun entry hentry => ?_⟩
    exact (ih entry hentry).imp_left hbefore
  | visit _ _ hbelow hafter ihbelow ihafter =>
    intro entry hentry
    rcases List.mem_append.1 hentry with hentry | hentry
    · obtain ⟨hnot, hmem⟩ := ihbelow entry hentry
      exact ⟨hbefore hnot, hafter.subset hmem⟩
    · obtain ⟨hnot, hmem⟩ := ihafter entry hentry
      exact ⟨hbefore fun hseen => hnot (hseen.mono hbelow.subset), hmem⟩

/-- No key is reported twice. -/
theorem distinct (h : PreOrder graph seen todo seen' out) :
    out.Pairwise fun a b => (a.key == b.key) = false := by
  -- what was seen before a report differs from what is reported
  have hother : ∀ {before : List Key} {k key : Key}, k ∈ before → ¬ Key.Among before key →
      (k == key) = false := fun hk hnot => by
    rw [← Bool.not_eq_true]
    exact fun hsame => hnot ⟨_, hk, hsame⟩
  induction h with
  | done => exact .nil
  | pass _ _ ih => exact ih
  | report _ _ h ih =>
    exact List.pairwise_cons.2 ⟨fun entry hentry =>
      hother List.mem_cons_self (h.fresh entry hentry).1, ih⟩
  | visit _ _ hbelow hafter ihbelow ihafter =>
    refine List.pairwise_append.2 ⟨ihbelow, ihafter, fun a ha b hb => ?_⟩
    exact hother (hbelow.fresh a ha).2 (hafter.fresh b hb).1

/-- The search has one outcome. -/
theorem unique (h : PreOrder graph seen todo seen' out) :
    ∀ {seen'' : List Key} {out' : List MissingKey}, PreOrder graph seen todo seen'' out' →
      seen' = seen'' ∧ out = out' := by
  induction h with
  | done =>
    intro _ _ h'
    cases h'
    exact ⟨rfl, rfl⟩
  | pass hpass _ ih =>
    intro _ _ h'
    cases h' with
    | pass _ h' => exact ih h'
    | report hnot => exact absurd hpass hnot
    | visit hnot => exact absurd hpass hnot
  | report hnot hnone _ ih =>
    intro _ _ h'
    cases h' with
    | pass hpass => exact absurd hpass hnot
    | report _ _ h' =>
      obtain ⟨rfl, rfl⟩ := ih h'
      exact ⟨rfl, rfl⟩
    | visit _ hnode => rw [hnone] at hnode; cases hnode
  | visit hnot hnode _ _ ihbelow ihafter =>
    intro _ _ h'
    cases h' with
    | pass hpass => exact absurd hpass hnot
    | report _ hnone => rw [hnone] at hnode; cases hnode
    | visit _ hnode' hbelow hafter =>
      obtain rfl := Option.some.inj (hnode.symm.trans hnode')
      obtain ⟨rfl, rfl⟩ := ihbelow hbelow
      obtain ⟨rfl, rfl⟩ := ihafter hafter
      exact ⟨rfl, rfl⟩

end PreOrder

/-! ## The steps -/

/-- A step looks at one key as the recursive search does. -/
theorem step_cases (graph : Graph) (visited : KeySet) (missing : Array MissingKey)
    (key requiredBy : Key) (rest : List (Key × Key)) :
    (visited.contains key = true ∧
      step graph ⟨visited, missing, (key, requiredBy) :: rest⟩ = ⟨visited, missing, rest⟩) ∨
    (visited.contains key = false ∧ graph.node? key = none ∧
      step graph ⟨visited, missing, (key, requiredBy) :: rest⟩ =
        ⟨visited.add key, missing.push ⟨key, requiredBy⟩, rest⟩) ∨
    ∃ node, visited.contains key = false ∧ graph.node? key = some node ∧
      step graph ⟨visited, missing, (key, requiredBy) :: rest⟩ =
        ⟨visited.add key, missing, needed key node ++ rest⟩ := by
  cases hseen : visited.contains key with
  | true => exact Or.inl ⟨rfl, by simp [step, hseen]⟩
  | false =>
    cases hnode : graph.node? key with
    | none => exact Or.inr (Or.inl ⟨rfl, rfl, by simp [step, hseen, hnode]⟩)
    | some node => exact Or.inr (Or.inr ⟨node, rfl, rfl, by simp [step, hseen, hnode, needed]⟩)

/-- From a state the search ends with a list of reports, which is that of the recursive search. -/
def Finishes (graph : Graph) (reports : List MissingKey) (state : State) : Prop :=
  ∀ seen, state.visited.Holds seen → ∃ seen' out, PreOrder graph seen state.pending seen' out ∧
    reports = state.missing.toList ++ out

theorem Finishes.of_step {reports : List MissingKey} (state : State)
    (h : Finishes graph reports (step graph state)) : Finishes graph reports state := by
  obtain ⟨visited, missing, _ | ⟨⟨key, requiredBy⟩, rest⟩⟩ := state
  · exact h
  · intro seen hseen
    rcases step_cases graph visited missing key requiredBy rest with
      ⟨hold, hstep⟩ | ⟨hnew, hnone, hstep⟩ | ⟨node, hnew, hnode, hstep⟩ <;> rw [hstep] at h
    · obtain ⟨seen', out, hrest, hout⟩ := h seen hseen
      exact ⟨seen', out, .pass (hseen.contains_iff.1 hold) hrest, hout⟩
    · have hnot : ¬ Key.Among seen key := by rw [← hseen.contains_iff, hnew]; exact Bool.noConfusion
      obtain ⟨seen', out, hrest, hout⟩ := h _ (hseen.add key)
      exact ⟨seen', _, .report hnot hnone hrest, by simpa using hout⟩
    · have hnot : ¬ Key.Among seen key := by rw [← hseen.contains_iff, hnew]; exact Bool.noConfusion
      obtain ⟨seen', out, hrest, hout⟩ := h _ (hseen.add key)
      obtain ⟨inner, below, after, hbelow, hafter, rfl⟩ := hrest.split
      exact ⟨seen', _, .visit hnot hnode hbelow hafter, hout⟩

/-! ## The end of the search -/

/-- The number of dependencies of a key. -/
def degree (graph : Graph) (key : Key) : Nat :=
  match graph.node? key with
  | some node => node.dependencies.length
  | none => 0

theorem degree_congr {a b : Key} (h : (a == b) = true) : degree graph a = degree graph b := by
  rw [degree, degree, node?_congr h]

theorem degree_of_node? {key : Key} {node : Node} (h : graph.node? key = some node) :
    degree graph key = node.dependencies.length := by
  rw [degree, h]

theorem degree_of_not_contains (key : Key) (h : graph.contains key = false) :
    degree graph key = 0 := by
  have hnone : graph.node? key = none := by simpa [contains, node?, SlotTable.contains] using h
  rw [degree, hnone]

/-- What a search still has to do: each pending key is looked at once, and so is each dependency of
    a key that was not seen yet. -/
def State.work (graph : Graph) (state : State) : Nat :=
  state.pending.length + unseen (degree graph) state.visited.contains graph.keys

theorem work_start : (start graph).work graph ≤ graph.size + graph.edgeCount := by
  have hunseen := unseen_le (degree graph) (start graph).visited.contains graph.keys
  have hedges : (graph.keys.map (degree graph)).sum = graph.edgeCount := by
    rw [sum_keys_eq fun _ _ => degree_of_node?, edgeCount, List.length_flatMap]
  simp only [State.work, start, size_eq_length_keys, List.length_map] at hunseen ⊢
  omega

theorem step_wf (state : State) (h : state.visited.WellFormed) :
    (step graph state).visited.WellFormed := by
  obtain ⟨visited, missing, _ | ⟨⟨key, requiredBy⟩, rest⟩⟩ := state
  · exact h
  · rcases step_cases graph visited missing key requiredBy rest with
      ⟨-, hstep⟩ | ⟨-, -, hstep⟩ | ⟨node, -, -, hstep⟩ <;> rw [hstep]
    · exact h
    · exact h.insertNew key ()
    · exact h.insertNew key ()

theorem step_work_lt (state : State) (h : state.visited.WellFormed)
    (hdone : state.isDone = false) : (step graph state).work graph < state.work graph := by
  obtain ⟨visited, missing, _ | ⟨⟨key, requiredBy⟩, rest⟩⟩ := state
  · cases hdone
  · have hunseen : visited.contains key = false →
        unseen (degree graph) (visited.insertNew key ()).contains graph.keys + degree graph key ≤
          unseen (degree graph) visited.contains graph.keys := fun hnew =>
      unseen_insertNew h (fun _ _ => degree_congr) degree_of_not_contains hnew ()
    rcases step_cases graph visited missing key requiredBy rest with
      ⟨-, hstep⟩ | ⟨hnew, -, hstep⟩ | ⟨node, hnew, hnode, hstep⟩ <;> rw [hstep]
    · simp only [State.work, List.length_cons]
      omega
    · have hless := hunseen hnew
      simp only [State.work, List.length_cons, KeySet.add]
      omega
    · have hless := hunseen hnew
      rw [degree_of_node? hnode] at hless
      simp only [State.work, List.length_cons, List.length_append, needed, List.length_map,
        KeySet.add]
      omega

theorem run_spec (graph : Graph) :
    (run graph (graph.size + graph.edgeCount) (start graph)).isDone = true :=
  (Walk.run_spec step_wf step_work_lt .empty work_start).2

/-- The search reports what the recursive search through the keys of the graph does. -/
theorem run_preOrder (graph : Graph) :
    ∃ seen, PreOrder graph [] (start graph).pending seen graph.missing := by
  have hdone := run_spec graph
  have hend : Finishes graph graph.missing
      (run graph (graph.size + graph.edgeCount) (start graph)) := by
    intro seen _
    refine ⟨seen, [], ?_, (List.append_nil _).symm⟩
    rw [List.isEmpty_iff.1 hdone]
    exact .done
  obtain ⟨seen, out, h, hout⟩ := Walk.run_back Finishes.of_step hend [] .empty
  exact ⟨seen, by rwa [hout]⟩

end MissingSearch

/-! ## Results -/

variable {graph : Graph}

/-- What is reported is not provided, and is needed by the key that it is reported with. -/
theorem needed_of_mem_missing {entry : MissingKey} (hentry : entry ∈ graph.missing) :
    graph.contains entry.key = false ∧
      ∃ node, graph.node? entry.requiredBy = some node ∧ entry.key ∈ node.dependencies := by
  obtain ⟨seen, h⟩ := MissingSearch.run_preOrder graph
  obtain ⟨hnone, hneeded⟩ := h.reported entry hentry
  have hnot : graph.contains entry.key = false := by
    rw [← Bool.not_eq_true, contains_iff_node?, hnone]
    rintro ⟨node, hnode⟩
    cases hnode
  refine ⟨hnot, hneeded.resolve_left fun hroot => ?_⟩
  -- the roots of the search are provided
  obtain ⟨key, hkey, hpair⟩ := List.mem_map.1 hroot
  obtain ⟨rfl, -⟩ := Prod.mk.inj hpair
  rw [contains_of_mem_keys hkey] at hnot
  cases hnot

/-- A dependency of a node is provided or reported. -/
theorem provided_or_missing {key d : Key} {node : Node} (hnode : graph.node? key = some node)
    (hd : d ∈ node.dependencies) :
    graph.contains d = true ∨ ∃ entry ∈ graph.missing, (entry.key == d) = true := by
  obtain ⟨seen, h⟩ := MissingSearch.run_preOrder graph
  have hentered : ∀ k ∈ seen, (∃ node, graph.node? k = some node ∧
      ∀ d ∈ node.dependencies, Key.Among seen d) ∨ ∃ entry ∈ graph.missing, entry.key = k :=
    fun k hk => (h.entered k hk).resolve_left List.not_mem_nil
  obtain ⟨key', hkey', hsame⟩ := contains_iff_keys.1 (contains_iff_node?.2 ⟨node, hnode⟩)
  obtain ⟨k, hk, hsame'⟩ := h.seen_todo (key', key') (List.mem_map_of_mem hkey')
  have hknode : graph.node? k = some node := by
    rw [node?_congr (BEq.trans hsame' hsame), hnode]
  obtain ⟨c, hc, hcd⟩ : Key.Among seen d := by
    rcases hentered k hk with ⟨node', hnode', hdeps⟩ | ⟨entry, hentry, rfl⟩
    · obtain rfl := Option.some.inj (hknode.symm.trans hnode')
      exact hdeps d hd
    · have hnot := (needed_of_mem_missing hentry).1
      rw [contains_iff_node?.2 ⟨node, hknode⟩] at hnot
      cases hnot
  rcases hentered c hc with ⟨node', hnode', -⟩ | ⟨entry, hentry, rfl⟩
  · exact Or.inl ((contains_congr hcd).symm.trans (contains_iff_node?.2 ⟨node', hnode'⟩))
  · exact Or.inr ⟨entry, hentry, hcd⟩

/-- The missing keys are those that some node needs and that have no node. -/
theorem exists_missing_iff {key : Key} :
    (∃ entry ∈ graph.missing, (entry.key == key) = true) ↔ graph.contains key = false ∧
      ∃ k node, graph.node? k = some node ∧ ∃ d ∈ node.dependencies, (d == key) = true := by
  constructor
  · rintro ⟨entry, hentry, hsame⟩
    obtain ⟨hnot, node, hnode, hd⟩ := needed_of_mem_missing hentry
    exact ⟨contains_congr hsame ▸ hnot, _, node, hnode, _, hd, hsame⟩
  · rintro ⟨hnot, k, node, hnode, d, hd, hsame⟩
    rw [← contains_congr hsame] at hnot
    obtain ⟨entry, hentry, hsame'⟩ :=
      (provided_or_missing hnode hd).resolve_left (by simp [hnot])
    exact ⟨entry, hentry, BEq.trans hsame' hsame⟩

/-- Nothing is missing if every dependency of every node is provided, and only then. -/
theorem missing_eq_nil_iff : graph.missing = [] ↔
    ∀ key node, graph.node? key = some node → ∀ d ∈ node.dependencies, graph.contains d = true := by
  constructor
  · intro hnone key node hnode d hd
    refine (provided_or_missing hnode hd).resolve_right ?_
    rintro ⟨entry, hentry, -⟩
    rw [hnone] at hentry
    cases hentry
  · intro hall
    rw [List.eq_nil_iff_forall_not_mem]
    intro entry hentry
    obtain ⟨hnot, node, hnode, hd⟩ := needed_of_mem_missing hentry
    rw [hall _ node hnode _ hd] at hnot
    cases hnot

/-- What makes a list of reports that of the missing dependencies of a graph. -/
structure Misses (graph : Graph) (missing : List MissingKey) : Prop where
  /-- A key that a node needs and nothing provides is reported once. -/
  once : ∀ key node d, graph.node? key = some node → d ∈ node.eager ∨ d ∈ node.deferred →
    graph.contains d = false → missing.countP (fun entry => entry.key == d) = 1
  /-- No other key is reported, and each is reported with a provided key that needs it. -/
  only : ∀ entry ∈ missing, graph.contains entry.key = false ∧
    ∃ node, graph.node? entry.requiredBy = some node ∧
      (entry.key ∈ node.eager ∨ entry.key ∈ node.deferred)
  /-- Order and requirers are those of the recursive search through all keys, in the order of the
      graph. -/
  walk : ∀ reports, (∃ seen, MissingSearch.PreOrder graph []
    (graph.keys.map fun key => (key, key)) seen reports) ↔ reports = missing

/-- The search ends, and reports the missing dependencies of the graph. -/
theorem missing_follows (graph : Graph) :
    (MissingSearch.run graph (graph.size + graph.edgeCount)
      (MissingSearch.start graph)).isDone = true ∧ graph.Misses graph.missing := by
  obtain ⟨seen, h⟩ := MissingSearch.run_preOrder graph
  refine ⟨MissingSearch.run_spec graph, ⟨?_, ?_, ?_⟩⟩
  · intro key node d hnode hd hnot
    have hreported := (provided_or_missing hnode (List.mem_append.2 hd)).resolve_left
      (by simp [hnot])
    exact countP_eq_one h.distinct hreported
  · intro entry hentry
    obtain ⟨hnot, node, hnode, hd⟩ := needed_of_mem_missing hentry
    exact ⟨hnot, node, hnode, List.mem_append.1 hd⟩
  · intro reports
    refine ⟨fun ⟨_, h'⟩ => (h'.unique h).2, ?_⟩
    rintro rfl
    exact ⟨seen, h⟩

end Graph

end Injection
