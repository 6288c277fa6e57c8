/-
  What becomes of every provider that is added to a graph.

  * `Key.Split`: the dependencies of a provider, taken apart into those that are
    needed at once and the targets of those that are deferred;
  * `Graph.Accounts`: the keys of a graph, the node of each key, and the problems
    found, all of it read off the list of providers;
  * `Graph.ofAdditions_accounts`: every graph that is built by adding modules and
    single providers accounts for all of them.
-/
import Injection.Proofs.Draft

namespace Injection

/-! ## Dependencies -/

/-- Keys taken apart: those that defer no other key, and the targets of those that do. -/
inductive Key.Split : List Key → List Key → List Key → Prop
  | nil : Split [] [] []
  | eager {d ds eager deferred} : (∀ target, ¬ d.Defers target) → Split ds eager deferred →
    Split (d :: ds) (d :: eager) deferred
  | deferred {d target ds eager deferred} : d.Defers target → Split ds eager deferred →
    Split (d :: ds) eager (target :: deferred)

theorem Key.split_filter (ds : List Key) :
    Split ds (ds.filter fun d => d.deferredTarget?.isNone) (ds.filterMap deferredTarget?) := by
  induction ds with
  | nil => exact .nil
  | cons d ds ih =>
    cases hdeferred : d.deferredTarget? with
    | none =>
      rw [List.filterMap_cons_none hdeferred, List.filter_cons_of_pos (by simp [hdeferred])]
      exact .eager (deferredTarget?_eq_none_iff.1 hdeferred) ih
    | some target =>
      rw [List.filterMap_cons_some hdeferred, List.filter_cons_of_neg (by simp [hdeferred])]
      exact .deferred (deferredTarget?_eq_some_iff.1 hdeferred) ih

namespace Graph

/-! ## Keys and problems of providers -/

namespace Draft

/-- The keys kept are the keys provided, each one where it comes first. -/
theorem map_key_kept (providers : List ProviderDecl) :
    (kept providers).map (·.key) = (providers.map (·.key)).eraseDups := by
  induction providers using List.reverseRecOn with
  | nil => rfl
  | append_singleton providers p ih =>
    have hany : (providers.map (·.key)).eraseDups.any (p.key == ·) =
        providers.any (·.key == p.key) := by
      rw [← ih, ← any_kept, List.any_map]
      simp only [Function.comp_def, BEq.comm (a := p.key)]
    rw [List.map_append, List.map_singleton, List.eraseDups, eraseDupsBy_concat, ← List.eraseDups,
      hany, kept_concat, ← ih]
    split
    · rfl
    · rw [List.map_append, List.map_singleton]

theorem countP_problemsAfter (before : List ProviderDecl) (p : ProviderDecl) :
    (problemsAfter before p).countP (fun d => d.problem = .duplicate) =
      if before.any (·.key == p.key) then 1 else 0 := by
  have hopen : (if p.key.type.MentionsOpen then
      [Diagnostic.mk p.key .nonConcrete p.origin.render] else []).countP
        (fun d => d.problem = .duplicate) = 0 := by
    split <;> rfl
  rw [problemsAfter, List.countP_append, hopen, Nat.zero_add]
  simp only [List.any_eq_true]
  split <;> rfl

/-- A provider is kept, or it is a duplicate. -/
theorem length_eq_kept_add_duplicates (providers : List ProviderDecl) :
    providers.length = (kept providers).length +
      (problemsFrom [] providers).countP (fun d => d.problem = .duplicate) := by
  induction providers using List.reverseRecOn with
  | nil => rfl
  | append_singleton providers p ih =>
    rw [problemsFrom_concat, List.countP_append, List.nil_append, countP_problemsAfter, kept_concat]
    split
    · rw [List.length_append, List.length_singleton]
      omega
    · rw [List.length_append, List.length_append, List.length_singleton]
      omega

theorem countP_injectorProblems (providers : List ProviderDecl) :
    (injectorProblems providers).countP (fun d => d.problem = .duplicate) =
      if providers.any (·.key == .injector) then 1 else 0 := by
  rw [injectorProblems, ← List.isSome_find?]
  cases providers.find? (·.key == .injector) <;> rfl

end Draft

/-! ## Graphs -/

/-- What a graph that was built from a list of providers holds, and what was found to be wrong. -/
structure Accounts (graph : Graph) (found : List Diagnostic) (providers : List ProviderDecl) :
    Prop where
  /-- The keys are those of the providers, each one where it comes first, and then that of the
      injector unless a provider took it. -/
  keys_eq : graph.keys = (providers.map (·.key)).eraseDups ++
    if ∃ p ∈ providers, (p.key == .injector) = true then [] else [.injector]
  /-- The node of a key is made of the first provider with this key. -/
  node_first : ∀ {key p}, providers.find? (·.key == key) = some p →
    ∃ node, graph.node? key = some node ∧ node.scope = p.scope ∧ node.origin = some p.origin ∧
      Key.Split p.dependencies node.eager node.deferred
  /-- The injector needs nothing if no provider took its key. -/
  node_injector : (∀ p ∈ providers, (p.key == .injector) = false) →
    graph.node? .injector = some (.ofEdges [])
  /-- In the order of the providers, the open types and the keys that came before are found, each at
      the place of its provider; in the end the key of the injector, at the place of the first
      provider that took it. -/
  found_eq : found = Draft.problemsFrom [] providers ++ Draft.injectorProblems providers
  /-- A provider and the injector each have a node or are a duplicate. -/
  balance : providers.length + 1 = graph.size + found.countP (fun d => d.problem = .duplicate)

theorem Draft.Completes.accounts {graph : Graph} {found : List Diagnostic}
    {providers : List ProviderDecl} (h : Completes graph found providers) :
    Accounts graph found providers := by
  have hkeys : graph.keys = (kept providers).map (·.key) ++
      if providers.any (·.key == .injector) then [] else [.injector] := by
    rw [keys_eq_map, h.nodes_eq, List.map_append, nodesOf, List.map_map]
    split <;> rfl
  refine ⟨?_, fun {key p} hfind => ?_, fun hnot => ?_, h.found_eq, ?_⟩
  · rw [hkeys, map_key_kept]
    simp only [List.any_eq_true]
  · refine ⟨.ofProvider p, ?_, rfl, rfl, Key.split_filter _⟩
    rw [h.node?_eq, hfind]
    rfl
  · have hfind : providers.find? (·.key == .injector) = none := by simpa using hnot
    rw [h.node?_eq, hfind, if_pos BEq.rfl]
    rfl
  · rw [size_eq_length_keys, hkeys, h.found_eq, List.countP_append, countP_injectorProblems,
      length_eq_kept_add_duplicates providers, List.length_append, List.length_map]
    split
    · rw [List.length_nil]
      omega
    · rw [List.length_singleton]
      omega

/-- Whatever modules and single providers are added, and whatever was reported before, the graph
    accounts for every provider. -/
theorem ofAdditions_accounts (additions : List Draft.Addition) (log : Array Event) :
    let built := ((ofAdditions additions).run log).1
    Accounts built.1 built.2 (additions.flatMap Draft.Addition.providers) :=
  (ofAdditions_completes additions log).accounts

end Graph

end Injection
