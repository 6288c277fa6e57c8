/-
  Which declarations an analysis accepts.

  * `Built` relates a graph without problems to the modules it was built from,
    with what the graph answers in terms of the declarations;
  * `Graph.validate_ensures`: a graph is accepted exactly if it has no problem;
  * `analyse_outcome`: an analysis decides by the problems of the graph it builds;
  * `analyse_ok_iff`: an analysis accepts exactly the modules and targets that
    are well declared.
-/
import Injection.Analysis
import Injection.Proofs.Draft
import Injection.Proofs.Plan

namespace Injection

open Relation

/-! ## The graph of modules -/

/-- A graph that has the nodes of all providers that modules declare, and that of the injector. -/
def Built (modules : List ModuleDecl) (graph : Graph) : Prop :=
  graph.nodes.toList = Graph.Draft.nodesOf (declared modules) ++ [(.injector, .ofEdges [])]

namespace Built

variable {modules : List ModuleDecl} {graph : Graph}

theorem mem_nodes (h : Built modules graph) {key : Key} {node : Graph.Node} :
    (key, node) ∈ graph.nodes.toList ↔
      (∃ p ∈ declared modules, p.key = key ∧ .ofProvider p = node) ∨
        key = .injector ∧ node = .ofEdges [] := by
  rw [h]
  simp [Graph.Draft.nodesOf]

theorem contains_iff (h : Built modules graph) {key : Key} :
    graph.contains key = true ↔ Supplied modules key := by
  rw [Graph.contains_iff_keys, Graph.keys_eq_map, h]
  simp [Key.Among, Graph.Draft.nodesOf, Supplied, BEq.comm, or_and_right, exists_or]

/-- The eager dependencies of a node are those of its provider that are not deferred. -/
theorem mem_eager {p : ProviderDecl} {d : Key} :
    d ∈ (Graph.Node.ofProvider p).eager ↔ d ∈ p.dependencies ∧ d.deferredTarget? = none := by
  simp [Graph.Node.ofProvider]

/-- The dependencies of a node stand for those of its provider. -/
theorem mem_dependencies {p : ProviderDecl} {k : Key} :
    k ∈ (Graph.Node.ofProvider p).dependencies ↔ ∃ d ∈ p.dependencies, d.required = k := by
  rw [Graph.Node.dependencies, List.mem_append, mem_eager]
  simp only [Graph.Node.ofProvider, List.mem_filterMap, Key.required]
  constructor
  · rintro (⟨hk, hnone⟩ | ⟨d, hd, hsome⟩)
    · exact ⟨k, hk, by rw [hnone, Option.getD_none]⟩
    · exact ⟨d, hd, by rw [hsome, Option.getD_some]⟩
  · rintro ⟨d, hd, rfl⟩
    cases hdeferred : d.deferredTarget? with
    | none => exact Or.inl ⟨hd, hdeferred⟩
    | some target => exact Or.inr ⟨d, hd, hdeferred⟩

theorem needs_iff (h : Built modules graph) {a b : Key} :
    graph.Needs a b ↔ Demands modules a b := by
  constructor
  · intro hneeds
    obtain ⟨node, hnode⟩ := Graph.contains_iff_node?.1 hneeds.contains
    obtain ⟨d, hd, hsame⟩ := hneeds
    rw [Graph.eager_of_node? hnode] at hd
    obtain ⟨key, hmem, hkey⟩ := Graph.node?_eq_some_iff.1 hnode
    rcases h.mem_nodes.1 hmem with ⟨p, hp, rfl, rfl⟩ | ⟨rfl, rfl⟩
    · obtain ⟨hd, hnone⟩ := mem_eager.1 hd
      exact ⟨p, hp, hkey, d, hd, hnone, hsame⟩
    · cases hd
  · rintro ⟨p, hp, hkey, d, hd, hnone, hsame⟩
    have hnode : graph.node? a = some (.ofProvider p) :=
      Graph.node?_eq_some_iff.2 ⟨p.key, h.mem_nodes.2 (Or.inl ⟨p, hp, rfl, rfl⟩), hkey⟩
    exact ⟨d, by rw [Graph.eager_of_node? hnode]; exact mem_eager.2 ⟨hd, hnone⟩, hsame⟩

theorem acyclic_iff (h : Built modules graph) :
    graph.Acyclic ↔ ∀ key, ¬ TransGen (Demands modules) key key := by
  have heq : graph.Needs = Demands modules := funext fun a => funext fun b => propext h.needs_iff
  rw [Graph.Acyclic, heq]

theorem missing_eq_nil_iff (h : Built modules graph) :
    graph.missing = [] ↔
      ∀ p ∈ declared modules, ∀ d ∈ p.dependencies, Supplied modules d.required := by
  rw [Graph.missing_eq_nil_iff]
  constructor
  · intro hall p hp d hd
    have hnode : graph.node? p.key = some (.ofProvider p) :=
      Graph.node?_eq_some_iff.2 ⟨p.key, h.mem_nodes.2 (Or.inl ⟨p, hp, rfl, rfl⟩), BEq.rfl⟩
    exact h.contains_iff.1 (hall _ _ hnode _ (mem_dependencies.2 ⟨d, hd, rfl⟩))
  · intro hall key node hnode k hk
    obtain ⟨key', hmem, -⟩ := Graph.node?_eq_some_iff.1 hnode
    rcases h.mem_nodes.1 hmem with ⟨p, hp, rfl, rfl⟩ | ⟨rfl, rfl⟩
    · obtain ⟨d, hd, rfl⟩ := mem_dependencies.1 hk
      exact h.contains_iff.2 (hall p hp d hd)
    · cases hk

theorem targetDiagnostics_eq_nil_iff (h : Built modules graph) {targets : List TargetDecl} :
    graph.targetDiagnostics targets = [] ↔
      ∀ target ∈ targets, ∀ r ∈ target.requirements, Supplied modules r.2.required := by
  rw [Graph.targetDiagnostics, List.filterMap_eq_nil_iff]
  simp only [List.mem_flatMap, ite_eq_left_iff, reduceCtorEq, imp_false, not_not, h.contains_iff]
  constructor
  · exact fun hall target htarget r hr => hall r ⟨target, htarget, hr⟩
  · rintro hall r ⟨target, htarget, hr⟩
    exact hall target htarget r hr

end Built

/-! ## Validation -/

namespace Graph

/-- A graph without problems is accepted as it is; any other graph is rejected with its problems. -/
theorem validate_ensures (graph : Graph) (options : ReportOptions) (targets : List TargetDecl)
    (found : List Diagnostic) :
    (graph.validate options targets found).Ensures fun result =>
      graph.diagnostics targets found = [] ∧ (∃ valid, result = .ok valid ∧ valid.graph = graph) ∨
        graph.diagnostics targets found ≠ [] ∧
          result = .error (.ofDiagnostics options.limit (graph.diagnostics targets found)) := by
  rw [validate]
  split
  · next hnone => exact .report (.pure (.inl ⟨hnone, _, rfl, rfl⟩))
  · next first others hsome =>
    have hproblem : graph.diagnostics targets found ≠ [] := hsome ▸ List.cons_ne_nil first others
    dsimp only
    split
    · refine .bind (P := fun _ => True) (fun _ => trivial) fun _ _ => .pure (.inr ⟨hproblem, ?_⟩)
      rw [hsome]
    · refine .pure (.inr ⟨hproblem, ?_⟩)
      rw [hsome]

/-- A graph of modules has no problem exactly if modules and targets are well declared. -/
theorem Draft.Finished.diagnostics_eq_nil_iff {modules : List ModuleDecl} {graph : Graph}
    {found : List Diagnostic} (h : Finished graph found (declared modules))
    (targets : List TargetDecl) :
    graph.diagnostics targets found = [] ↔ WellDeclared modules targets := by
  rw [Graph.diagnostics, List.append_eq_nil_iff, List.append_eq_nil_iff, List.append_eq_nil_iff,
    List.map_eq_nil_iff, List.map_eq_nil_iff, cycles_eq_nil_iff]
  constructor
  · rintro ⟨hfound, hmissing, hacyclic, htargets⟩
    obtain ⟨hconcrete, hapart⟩ := h.found_eq_nil.1 hfound
    have hbuilt : Built modules graph := h.nodes_eq hapart
    exact ⟨hapart.1, hapart.2, fun p hp => (TypeExpr.isConcrete_iff _).1 (hconcrete p hp),
      hbuilt.missing_eq_nil_iff.1 hmissing, hbuilt.acyclic_iff.1 hacyclic,
      hbuilt.targetDiagnostics_eq_nil_iff.1 htargets⟩
  · intro hwell
    have hapart : Draft.Apart (declared modules) := ⟨hwell.distinct, hwell.not_injector⟩
    have hfound : found = [] := h.found_eq_nil.2 ⟨fun p hp =>
      (TypeExpr.isConcrete_iff _).2 (hwell.concrete p hp), hapart⟩
    have hbuilt : Built modules graph := h.nodes_eq hapart
    exact ⟨hfound, hbuilt.missing_eq_nil_iff.2 hwell.supplied, hbuilt.acyclic_iff.2 hwell.acyclic,
      hbuilt.targetDiagnostics_eq_nil_iff.2 hwell.targets⟩

end Graph

/-! ## Results -/

/-- What an analysis gives for a graph and its problems: the plan of the graph if there are no
    problems, and the problems if there are some. -/
inductive Outcome (graph : Graph) (problems : List Diagnostic) (options : ReportOptions) :
    Except Rejection Wiring → Prop
  | accepted {valid} : problems = [] → valid.graph = graph →
    Outcome graph problems options (.ok ⟨valid, .ofGraph valid⟩)
  | rejected : problems ≠ [] →
    Outcome graph problems options (.error (.ofDiagnostics options.limit problems))

/-- An analysis builds the graph of the modules, and decides by its problems. -/
theorem analyse_outcome (options : ReportOptions) (modules : List ModuleDecl)
    (targets : List TargetDecl) :
    (analyse options modules targets).Ensures fun result => ∃ graph found,
      Graph.Draft.Completes graph found (declared modules) ∧
        Outcome graph (graph.diagnostics targets found) options result := by
  refine .report ((Graph.ofModules_completes modules).bind ?_)
  rintro ⟨graph, found⟩ hcompletes
  refine (graph.validate_ensures options targets found).bind ?_
  rintro result (⟨hnone, valid, rfl, hgraph⟩ | ⟨hproblem, rfl⟩)
  · exact .report (.pure ⟨graph, found, hcompletes, .accepted hnone hgraph⟩)
  · exact .report (.pure ⟨graph, found, hcompletes, .rejected hproblem⟩)

/-- What a successful analysis gives: the graph of the modules, and the plan of that graph. -/
structure Wired (modules : List ModuleDecl) (wiring : Wiring) : Prop where
  built : Built modules wiring.graph.graph
  plan_eq : wiring.plan = Plan.ofGraph wiring.graph

theorem analyse_ensures (options : ReportOptions) (modules : List ModuleDecl)
    (targets : List TargetDecl) :
    (analyse options modules targets).Ensures fun result =>
      ((∃ wiring, result = .ok wiring) ↔ WellDeclared modules targets) ∧
        ∀ wiring, result = .ok wiring → Wired modules wiring := by
  refine (analyse_outcome options modules targets).mono ?_
  rintro result ⟨graph, found, hcompletes, houtcome⟩
  have hfinished := hcompletes.finished
  have hwell := hfinished.diagnostics_eq_nil_iff targets
  cases houtcome with
  | @accepted valid hnone hgraph =>
    refine ⟨iff_of_true ⟨_, rfl⟩ (hwell.1 hnone), fun wiring h => ?_⟩
    obtain rfl := Except.ok.inj h
    refine ⟨?_, rfl⟩
    rw [hgraph]
    exact hfinished.nodes_eq (hfinished.apart (List.append_eq_nil_iff.1 hnone).1)
  | rejected hproblem =>
    refine ⟨iff_of_false (fun ⟨_, h⟩ => ?_) (hwell.not.1 hproblem), fun _ h => ?_⟩
    · cases h
    · cases h

/-- An analysis succeeds exactly if the modules and the targets are well declared, whatever the
    options of its report and whatever was reported before. -/
theorem analyse_ok_iff (options : ReportOptions) (modules : List ModuleDecl)
    (targets : List TargetDecl) (log : Array Event) :
    (∃ wiring, ((analyse options modules targets).run log).1 = .ok wiring) ↔
      WellDeclared modules targets :=
  (analyse_ensures options modules targets log).1

end Injection
