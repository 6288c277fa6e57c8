/-
  To defer a dependency only relaxes a graph.

  Where `T` was asked for, `Provider<T>` or `Lazy<T>` may be asked for instead:
  the same key has to be provided, but it is not made together with its
  dependent any more.

  * `Key.Relaxed` and its likes for providers, modules and targets: declarations
    in which some dependencies are deferred;
  * `Graph.Relaxed`: graphs with the same keys, in which each key needs the same
    others, and no more of them at once;
  * `analyse_relaxed`: what stays when dependencies are deferred, in two analyses.
-/
import Injection.Proofs.Reordering

namespace Injection

open Relation

/-! ## Declarations -/

/-- A key is left as it is, or it defers nothing and is deferred itself. -/
inductive Key.Relaxed : Key → Key → Prop
  | refl (key) : Relaxed key key
  | deferred {key key'} : (∀ target, ¬ key.Defers target) → key'.Defers key → Relaxed key key'

/-- A provider some of whose dependencies are deferred. -/
structure ProviderDecl.Relaxed (p p' : ProviderDecl) : Prop where
  origin_eq : p'.origin = p.origin
  key_eq : p'.key = p.key
  dependencies : List.Forall₂ Key.Relaxed p.dependencies p'.dependencies
  scope_eq : p'.scope = p.scope

/-- A module some of whose dependencies are deferred. -/
structure ModuleDecl.Relaxed (m m' : ModuleDecl) : Prop where
  name_eq : m'.name = m.name
  providers : List.Forall₂ ProviderDecl.Relaxed m.providers m'.providers

/-- A place some of whose keys are deferred. -/
inductive InjectionPoint.Relaxed : InjectionPoint → InjectionPoint → Prop
  | constructor {keys keys'} : List.Forall₂ Key.Relaxed keys keys' →
    Relaxed (.constructor keys) (.constructor keys')
  | field {name key key'} : key.Relaxed key' → Relaxed (.field name key) (.field name key')
  | method {name keys keys'} : List.Forall₂ Key.Relaxed keys keys' →
    Relaxed (.method name keys) (.method name keys')

/-- A class some of whose requirements are deferred. -/
structure TargetDecl.Relaxed (t t' : TargetDecl) : Prop where
  type_eq : t'.type = t.type
  points : List.Forall₂ InjectionPoint.Relaxed t.points t'.points

namespace Key.Relaxed

variable {key key' : Key}

/-- The key that has to be provided stays. -/
theorem required_eq (h : key.Relaxed key') : key'.required = key.required := by
  cases h with
  | refl => rfl
  | deferred hnone hdefers =>
    rw [required, required, deferredTarget?_eq_some_iff.2 hdefers,
      deferredTarget?_eq_none_iff.2 hnone]
    rfl

/-- A key that is needed at once was not changed. -/
theorem eq_of_eager (h : key.Relaxed key') (heager : key'.deferredTarget? = none) :
    key' = key := by
  cases h with
  | refl => rfl
  | deferred _ hdefers => exact absurd hdefers (deferredTarget?_eq_none_iff.1 heager _)

theorem map_required_eq {keys keys' : List Key} (h : List.Forall₂ Relaxed keys keys') :
    keys'.map required = keys.map required := by
  induction h with
  | nil => rfl
  | cons hkey _ ih => rw [List.map_cons, List.map_cons, hkey.required_eq, ih]

theorem eager_subset {keys keys' : List Key} (h : List.Forall₂ Relaxed keys keys') {d : Key}
    (hd : d ∈ keys') (heager : d.deferredTarget? = none) : d ∈ keys := by
  induction h with
  | nil => cases hd
  | cons hkey _ ih =>
    rcases List.mem_cons.1 hd with rfl | hd
    · rw [hkey.eq_of_eager heager]
      exact List.mem_cons_self
    · exact List.mem_cons_of_mem _ (ih hd)

end Key.Relaxed

theorem InjectionPoint.Relaxed.name_eq {point point' : InjectionPoint} (h : point.Relaxed point') :
    point'.name = point.name := by
  cases h <;> rfl

theorem InjectionPoint.Relaxed.keys {point point' : InjectionPoint} (h : point.Relaxed point') :
    List.Forall₂ Key.Relaxed point.keys point'.keys := by
  cases h with
  | constructor hkeys => exact hkeys
  | field hkey => exact .cons hkey .nil
  | method hkeys => exact hkeys

/-- What a class needs stays, with the places that need it. -/
theorem TargetDecl.Relaxed.requirements {target target' : TargetDecl} (h : target.Relaxed target') :
    List.Forall₂ (fun r r' => r'.1 = r.1 ∧ r.2.Relaxed r'.2) target.requirements
      target'.requirements := by
  refine List.rel_flatMap h.points fun point point' hpoint => ?_
  rw [hpoint.name_eq, h.type_eq]
  exact List.rel_map (fun key key' hkey => ⟨rfl, hkey⟩) hpoint.keys

theorem requirements_relaxed {targets targets' : List TargetDecl}
    (h : List.Forall₂ TargetDecl.Relaxed targets targets') :
    List.Forall₂ (fun r r' => r'.1 = r.1 ∧ r.2.Relaxed r'.2)
      (targets.flatMap TargetDecl.requirements) (targets'.flatMap TargetDecl.requirements) :=
  List.rel_flatMap h fun _ _ htarget => htarget.requirements

theorem declared_relaxed {modules modules' : List ModuleDecl}
    (h : List.Forall₂ ModuleDecl.Relaxed modules modules') :
    List.Forall₂ ProviderDecl.Relaxed (declared modules) (declared modules') :=
  List.rel_flatMap h fun _ _ hmodule => hmodule.providers

/-- Whether a problem is found while a graph is built, and not by its validation. -/
def Problem.ofBuilding : Problem → Bool
  | .duplicate | .nonConcrete => true
  | .unresolved | .cyclic => false

/-! ## Graphs -/

namespace Graph

/-- A circuit of eager dependencies: each of its keys needs the next one, and the last one needs the
    first. -/
def Circuit (graph : Graph) (keys : List Key) : Prop :=
  ∃ first rest, keys = first :: rest ∧ List.IsChain graph.Needs (first :: rest ++ [first])

/-- A walk along a list goes from its first key to its last one. -/
theorem transGen_of_isChain {R : Key → Key → Prop} {last : Key} :
    ∀ {first : Key} {rest : List Key}, List.IsChain R (first :: rest ++ [last]) →
      TransGen R first last
  | _, [], h => .single (List.isChain_pair.1 h)
  | _, next :: rest, h => by
    obtain ⟨hnext, hrest⟩ := List.isChain_cons_cons.1 h
    exact .head hnext (@transGen_of_isChain _ _ next rest hrest)

/-- A graph is acyclic if it has no circuit, and only then. -/
theorem acyclic_iff {graph : Graph} : graph.Acyclic ↔ ∀ keys, ¬ graph.Circuit keys := by
  constructor
  · rintro hacyclic _ ⟨first, rest, rfl, hchain⟩
    exact hacyclic first (transGen_of_isChain hchain)
  · intro hnone key hcycle
    obtain ⟨next, hnext, hback⟩ := TransGen.head'_iff.1 hcycle
    obtain ⟨rest, hchain, hlast⟩ := List.exists_isChain_cons_of_relationReflTransGen hback
    refine hnone (key :: (next :: rest).dropLast) ⟨key, _, rfl, ?_⟩
    rw [List.cons_append, ← hlast, List.dropLast_append_getLast, hlast]
    exact List.isChain_cons_cons.2 ⟨hnext, hchain⟩

/-- A node that needs the same keys as another, and no more of them at once. -/
structure Node.Relaxed (node node' : Node) : Prop where
  eager_subset : node'.eager ⊆ node.eager
  mem_dependencies_iff : ∀ {d}, d ∈ node'.dependencies ↔ d ∈ node.dependencies

theorem Node.Relaxed.refl (node : Node) : node.Relaxed node := ⟨fun _ h => h, .rfl⟩

theorem Node.Relaxed.ofProvider {p p' : ProviderDecl} (h : p.Relaxed p') :
    (Node.ofProvider p).Relaxed (.ofProvider p') where
  eager_subset d hd := by
    obtain ⟨hmem, heager⟩ := Built.mem_eager.1 hd
    exact Built.mem_eager.2 ⟨Key.Relaxed.eager_subset h.dependencies hmem heager, heager⟩
  mem_dependencies_iff {d} := by
    rw [Built.mem_dependencies, Built.mem_dependencies, ← List.mem_map, ← List.mem_map,
      Key.Relaxed.map_required_eq h.dependencies]

/-- A graph with the keys of another, each with a node that is relaxed. -/
def Relaxed (graph graph' : Graph) : Prop :=
  ∀ key, Option.Rel Node.Relaxed (graph.node? key) (graph'.node? key)

namespace Relaxed

variable {graph graph' : Graph}

/-- A key has a node in both graphs or in none. -/
theorem cases (h : graph.Relaxed graph') (key : Key) :
    (graph.node? key = none ∧ graph'.node? key = none) ∨ ∃ node node',
      graph.node? key = some node ∧ graph'.node? key = some node' ∧ node.Relaxed node' := by
  have hrel := h key
  generalize graph.node? key = node at hrel ⊢
  generalize graph'.node? key = node' at hrel ⊢
  cases hrel with
  | some hrel => exact .inr ⟨_, _, rfl, rfl, hrel⟩
  | none => exact .inl ⟨rfl, rfl⟩

theorem forth (h : graph.Relaxed graph') {key : Key} {node : Node}
    (hnode : graph.node? key = some node) :
    ∃ node', graph'.node? key = some node' ∧ node.Relaxed node' := by
  rcases h.cases key with ⟨hnone, -⟩ | ⟨_, node', hsome, hnode', hrel⟩
  · rw [hnone] at hnode
    cases hnode
  · obtain rfl := Option.some.inj (hsome.symm.trans hnode)
    exact ⟨node', hnode', hrel⟩

theorem back (h : graph.Relaxed graph') {key : Key} {node' : Node}
    (hnode : graph'.node? key = some node') :
    ∃ node, graph.node? key = some node ∧ node.Relaxed node' := by
  rcases h.cases key with ⟨-, hnone⟩ | ⟨node, _, hnode', hsome, hrel⟩
  · rw [hnone] at hnode
    cases hnode
  · obtain rfl := Option.some.inj (hsome.symm.trans hnode)
    exact ⟨node, hnode', hrel⟩

theorem contains_eq (h : graph.Relaxed graph') (key : Key) :
    graph'.contains key = graph.contains key := by
  rw [Bool.eq_iff_iff, contains_iff_node?, contains_iff_node?]
  rcases h.cases key with ⟨hnone, hnone'⟩ | ⟨node, node', hnode, hnode', -⟩
  · simp only [hnone, hnone']
  · exact iff_of_true ⟨node', hnode'⟩ ⟨node, hnode⟩

theorem needs (h : graph.Relaxed graph') {a b : Key} (hneeds : graph'.Needs a b) :
    graph.Needs a b := by
  obtain ⟨node', hnode'⟩ := contains_iff_node?.1 hneeds.contains
  obtain ⟨node, hnode, hrelaxed⟩ := h.back hnode'
  obtain ⟨d, hd, hsame⟩ := hneeds
  rw [eager_of_node? hnode'] at hd
  exact ⟨d, eager_of_node? hnode ▸ hrelaxed.eager_subset hd, hsame⟩

/-- Every circuit was one before. -/
theorem circuit (h : graph.Relaxed graph') {keys : List Key} (hcircuit : graph'.Circuit keys) :
    graph.Circuit keys := by
  obtain ⟨first, rest, hkeys, hchain⟩ := hcircuit
  exact ⟨first, rest, hkeys, hchain.imp fun _ _ => h.needs⟩

theorem acyclic (h : graph.Relaxed graph') (hacyclic : graph.Acyclic) : graph'.Acyclic := by
  rw [acyclic_iff] at hacyclic ⊢
  exact fun keys hcircuit => hacyclic keys (h.circuit hcircuit)

/-- The same keys are missing. -/
theorem exists_missing_iff (h : graph.Relaxed graph') {key : Key} :
    (∃ entry ∈ graph'.missing, (entry.key == key) = true) ↔
      ∃ entry ∈ graph.missing, (entry.key == key) = true := by
  rw [Graph.exists_missing_iff, Graph.exists_missing_iff, h.contains_eq]
  refine and_congr_right fun _ => ⟨?_, ?_⟩
  · rintro ⟨k, node', hnode', d, hd, hsame⟩
    obtain ⟨node, hnode, hrelaxed⟩ := h.back hnode'
    exact ⟨k, node, hnode, d, hrelaxed.mem_dependencies_iff.1 hd, hsame⟩
  · rintro ⟨k, node, hnode, d, hd, hsame⟩
    obtain ⟨node', hnode', hrelaxed⟩ := h.forth hnode
    exact ⟨k, node', hnode', d, hrelaxed.mem_dependencies_iff.2 hd, hsame⟩

theorem missing_eq_nil (h : graph.Relaxed graph') (hnone : graph.missing = []) :
    graph'.missing = [] := by
  rw [List.eq_nil_iff_forall_not_mem]
  intro entry hentry
  obtain ⟨entry', hentry', -⟩ := h.exists_missing_iff.1 ⟨entry, hentry, BEq.rfl⟩
  rw [hnone] at hentry'
  cases hentry'

theorem targetDiagnostics_eq (h : graph.Relaxed graph') {targets targets' : List TargetDecl}
    (htargets : List.Forall₂ TargetDecl.Relaxed targets targets') :
    graph'.targetDiagnostics targets' = graph.targetDiagnostics targets := by
  have hneeds := requirements_relaxed htargets
  unfold targetDiagnostics
  generalize targets.flatMap TargetDecl.requirements = needs at hneeds ⊢
  generalize targets'.flatMap TargetDecl.requirements = needs' at hneeds ⊢
  induction hneeds with
  | nil => rfl
  | @cons need need' _ _ hneed _ ih =>
    obtain ⟨location, key⟩ := need
    obtain ⟨location', key'⟩ := need'
    obtain ⟨rfl, hkey⟩ : location' = location ∧ key.Relaxed key' := hneed
    rw [List.filterMap_cons, List.filterMap_cons, ih]
    simp only [hkey.required_eq, h.contains_eq]

/-- A graph without problems has none when it is relaxed. -/
theorem diagnostics_eq_nil (h : graph.Relaxed graph') {targets targets' : List TargetDecl}
    (htargets : List.Forall₂ TargetDecl.Relaxed targets targets') {found : List Diagnostic}
    (hnone : graph.diagnostics targets found = []) : graph'.diagnostics targets' found = [] := by
  simp only [diagnostics, List.append_eq_nil_iff, List.map_eq_nil_iff, cycles_eq_nil_iff] at hnone ⊢
  obtain ⟨hfound, hmissing, hacyclic, hunmet⟩ := hnone
  exact ⟨hfound, h.missing_eq_nil hmissing, h.acyclic hacyclic,
    h.targetDiagnostics_eq htargets ▸ hunmet⟩

end Relaxed

namespace Draft

variable {providers providers' : List ProviderDecl}

theorem find?_relaxed (h : List.Forall₂ ProviderDecl.Relaxed providers providers') (key : Key) :
    Option.Rel ProviderDecl.Relaxed (providers.find? (·.key == key))
      (providers'.find? (·.key == key)) := by
  induction h with
  | nil => exact .none
  | @cons p p' _ _ hp _ ih =>
    rw [List.find?_cons, List.find?_cons, hp.key_eq]
    cases p.key == key with
    | true => exact .some hp
    | false => exact ih

/-- Problems of providers are no matter of their dependencies. -/
theorem problemsAfter_eq {before before' : List ProviderDecl} {p p' : ProviderDecl}
    (hbefore : before'.map (·.key) = before.map (·.key)) (hp : p.Relaxed p') :
    problemsAfter before' p' = problemsAfter before p := by
  have hamong : ∀ ps : List ProviderDecl,
      (∃ q ∈ ps, (q.key == p.key) = true) ↔ Key.Among (ps.map (·.key)) p.key := by
    simp [Key.Among]
  have hsome : (∃ q ∈ before', (q.key == p'.key) = true) ↔
      ∃ q ∈ before, (q.key == p.key) = true := by
    rw [hp.key_eq, hamong, hamong, hbefore]
  have hopen : p'.key.type.MentionsOpen ↔ p.key.type.MentionsOpen := by rw [hp.key_eq]
  rw [problemsAfter, problemsAfter, if_congr hsome rfl rfl, if_congr hopen rfl rfl, hp.key_eq,
    hp.origin_eq]

theorem problemsFrom_eq (h : List.Forall₂ ProviderDecl.Relaxed providers providers') :
    ∀ {before before' : List ProviderDecl}, before'.map (·.key) = before.map (·.key) →
      problemsFrom before' providers' = problemsFrom before providers := by
  induction h with
  | nil => exact fun _ => rfl
  | @cons p p' _ _ hp _ ih =>
    intro before before' hbefore
    have hnext : (before' ++ [p']).map (·.key) = (before ++ [p]).map (·.key) := by
      simp only [List.map_append, List.map_cons, List.map_nil, hbefore, hp.key_eq]
    rw [problemsFrom, problemsFrom, problemsAfter_eq hbefore hp, ih hnext]

theorem injectorProblems_eq (h : List.Forall₂ ProviderDecl.Relaxed providers providers') :
    injectorProblems providers' = injectorProblems providers := by
  have hrel := find?_relaxed h .injector
  unfold injectorProblems
  generalize providers.find? (·.key == .injector) = first at hrel ⊢
  generalize providers'.find? (·.key == .injector) = first' at hrel ⊢
  cases hrel with
  | none => rfl
  | some hp => simp only [hp.origin_eq]

/-- Graphs of providers some of whose dependencies are deferred are relaxed, and nothing else was
    found to be wrong with them. -/
theorem Completes.relaxed {graph graph' : Graph} {found found' : List Diagnostic}
    (h : Completes graph found providers) (h' : Completes graph' found' providers')
    (hproviders : List.Forall₂ ProviderDecl.Relaxed providers providers') :
    graph.Relaxed graph' ∧ found' = found := by
  constructor
  · intro key
    rw [h.node?_eq, h'.node?_eq]
    have hrel := find?_relaxed hproviders key
    generalize providers.find? (·.key == key) = first at hrel ⊢
    generalize providers'.find? (·.key == key) = first' at hrel ⊢
    cases hrel with
    | some hp => exact .some (.ofProvider hp)
    | none =>
      by_cases hinjector : (Key.injector == key) = true
      · rw [if_pos hinjector]
        exact .some (.refl _)
      · rw [if_neg hinjector]
        exact .none
  · rw [h.found_eq, h'.found_eq, problemsFrom_eq hproviders rfl, injectorProblems_eq hproviders]

/-- All that is found while a graph is built are open types and keys that were taken. -/
theorem Completes.ofBuilding {graph : Graph} {found : List Diagnostic}
    (h : Completes graph found providers) {d : Diagnostic} (hd : d ∈ found) :
    d.problem.ofBuilding = true := by
  have hafter : ∀ before p, ∀ d ∈ problemsAfter before p, d.problem.ofBuilding = true := by
    intro before p d hd
    rcases List.mem_append.1 hd with hd | hd
    · split at hd
      · rw [List.mem_singleton.1 hd]
        rfl
      · cases hd
    · split at hd
      · rw [List.mem_singleton.1 hd]
        rfl
      · cases hd
  have hfrom : ∀ before, ∀ d ∈ problemsFrom before providers, d.problem.ofBuilding = true := by
    clear h
    induction providers with
    | nil => exact fun _ _ hd => by cases hd
    | cons p providers ih =>
      intro before d hd
      rcases List.mem_append.1 hd with hd | hd
      · exact hafter before p d hd
      · exact ih _ d hd
  rw [h.found_eq] at hd
  rcases List.mem_append.1 hd with hd | hd
  · exact hfrom [] d hd
  · unfold injectorProblems at hd
    split at hd
    · cases hd
    · rw [List.mem_singleton.1 hd]
      rfl

/-- What was found while building comes first, and what a validation finds itself is of other
    kinds. -/
theorem Completes.filter_ofBuilding {graph : Graph} {found : List Diagnostic}
    (h : Completes graph found providers) (targets : List TargetDecl) :
    (graph.diagnostics targets found).filter (fun d => d.problem.ofBuilding) = found := by
  have hrest : ∀ d ∈ graph.missing.map (MissingKey.diagnostic graph) ++
      (graph.cycles.map graph.cycleDiagnostic ++ graph.targetDiagnostics targets),
      ¬ d.problem.ofBuilding = true := by
    intro d hd
    simp only [List.mem_append, List.mem_map] at hd
    rcases hd with ⟨entry, -, rfl⟩ | ⟨key, -, rfl⟩ | hd
    · exact Bool.false_ne_true
    · exact Bool.false_ne_true
    · rw [problem_of_mem_targetDiagnostics hd]
      exact Bool.false_ne_true
  rw [Graph.diagnostics, List.filter_append, List.filter_eq_self.2 fun d => h.ofBuilding,
    List.filter_eq_nil_iff.2 hrest, List.append_nil]

end Draft

end Graph

/-! ## Two analyses -/

/-- The problems that an analysis lists. -/
def listed : Except Rejection Wiring → List Diagnostic
  | .ok _ => []
  | .error rejection => rejection.diagnostics

/-- The keys that an analysis lists as unresolved. -/
def unresolved (result : Except Rejection Wiring) : List Key :=
  ((listed result).filter fun d => d.problem = .unresolved).map (·.key)

namespace Outcome

variable {graph : Graph} {problems : List Diagnostic} {options : ReportOptions}
  {result : Except Rejection Wiring}

/-- Without a limit all problems are listed. -/
theorem listed_eq (h : Outcome graph problems options result) (hlimit : options.limit = none) :
    listed result = problems := by
  cases h with
  | accepted hnone _ => exact hnone.symm
  | rejected => rw [listed, hlimit, Rejection.ofDiagnostics]

/-- A graph without problems is accepted, and no other one. -/
theorem exists_ok_iff (h : Outcome graph problems options result) :
    (∃ wiring, result = .ok wiring) ↔ problems = [] := by
  cases h with
  | accepted hnone _ => exact iff_of_true ⟨_, rfl⟩ hnone
  | rejected hproblem => exact iff_of_false (fun ⟨_, h⟩ => by cases h) hproblem

/-- What is accepted is the graph with its plan. -/
theorem of_ok {wiring : Wiring} (h : Outcome graph problems options (.ok wiring)) :
    wiring.graph.graph = graph ∧ wiring.plan = .ofGraph wiring.graph := by
  cases h with
  | accepted _ hgraph => exact ⟨hgraph, rfl⟩

end Outcome

/-- A plan has an instruction for each provided key but the injector's. -/
theorem Plan.among_ofGraph_iff {valid : ValidGraph} {key : Key} :
    Key.Among ((ofGraph valid).instructions.map (·.key)) key ↔
      valid.graph.contains key = true ∧ (key == .injector) = false := by
  constructor
  · rintro ⟨_, hmem, hsame⟩
    obtain ⟨i, hi, rfl⟩ := List.mem_map.1 hmem
    obtain ⟨hinjector, node, hnode, -⟩ := instruction_ofGraph valid hi
    have hcontains := Graph.contains_iff_node?.2 ⟨node, hnode⟩
    refine ⟨Graph.contains_congr hsame ▸ hcontains, ?_⟩
    rw [← Bool.not_eq_true] at hinjector ⊢
    exact fun hkey => hinjector (BEq.trans hsame hkey)
  · rintro ⟨hcontains, hinjector⟩
    obtain ⟨i, hi, hsame⟩ := exists_instruction valid hcontains hinjector
    exact ⟨i.key, List.mem_map_of_mem hi, hsame⟩

/-- Two analyses, of declarations and of the same declarations with some dependencies and
    requirements deferred.  If the first one succeeds, so does the second, with instructions for the
    same keys.  Without limits both list the same keys as unresolved, and what was found while
    building the graphs, which is the same.  Every circuit of eager dependencies in the second
    graph is one in the first. -/
theorem analyse_relaxed {modules modules' : List ModuleDecl} {targets targets' : List TargetDecl}
    (hmodules : List.Forall₂ ModuleDecl.Relaxed modules modules')
    (htargets : List.Forall₂ TargetDecl.Relaxed targets targets')
    (options options' : ReportOptions) (log log' : Array Event) :
    let built := ((Graph.ofModules modules).run log).1
    let built' := ((Graph.ofModules modules').run log').1
    let result := ((analyse options modules targets).run log).1
    let result' := ((analyse options' modules' targets').run log').1
    (∀ wiring, result = .ok wiring → ∃ wiring', result' = .ok wiring' ∧
      ∀ key, Key.Among (wiring.plan.instructions.map (·.key)) key ↔
        Key.Among (wiring'.plan.instructions.map (·.key)) key) ∧
    (options.limit = none → options'.limit = none →
      (∀ key, Key.Among (unresolved result) key ↔ Key.Among (unresolved result') key) ∧
      (listed result).filter (fun d => d.problem.ofBuilding) = built.2 ∧
      (listed result').filter (fun d => d.problem.ofBuilding) = built'.2) ∧
    built.2 = built'.2 ∧
    ∀ keys, built'.1.Circuit keys → built.1.Circuit keys := by
  intro built built' result result'
  have hproviders := declared_relaxed hmodules
  have hbuilt := Graph.ofModules_completes modules log
  have hbuilt' := Graph.ofModules_completes modules' log'
  obtain ⟨hgraphs, hfound⟩ := hbuilt.relaxed hbuilt' hproviders
  obtain ⟨graph, found, hcompletes, houtcome⟩ : ∃ graph found,
      Graph.Draft.Completes graph found (declared modules) ∧
        Outcome graph (graph.diagnostics targets found) options result :=
    analyse_outcome options modules targets log
  obtain ⟨graph', found', hcompletes', houtcome'⟩ : ∃ graph found,
      Graph.Draft.Completes graph found (declared modules') ∧
        Outcome graph (graph.diagnostics targets' found) options' result' :=
    analyse_outcome options' modules' targets' log'
  obtain ⟨hrelaxed, rfl⟩ := hcompletes.relaxed hcompletes' hproviders
  refine ⟨fun wiring hwiring => ?_, fun hlimit hlimit' => ⟨fun key => ?_, ?_, ?_⟩, hfound.symm,
    fun keys => hgraphs.circuit⟩
  · have hnone := houtcome.exists_ok_iff.1 ⟨wiring, hwiring⟩
    obtain ⟨wiring', hwiring'⟩ :=
      houtcome'.exists_ok_iff.2 (hrelaxed.diagnostics_eq_nil htargets hnone)
    rw [hwiring] at houtcome
    rw [hwiring'] at houtcome'
    obtain ⟨rfl, hplan⟩ := houtcome.of_ok
    obtain ⟨rfl, hplan'⟩ := houtcome'.of_ok
    refine ⟨wiring', hwiring', fun key => ?_⟩
    rw [hplan, hplan', Plan.among_ofGraph_iff, Plan.among_ofGraph_iff, hrelaxed.contains_eq]
  · have hproblem : ∀ d ∈ found', d.problem ≠ .unresolved := fun d hd hunresolved => by
      have := hcompletes.ofBuilding hd
      rw [hunresolved] at this
      cases this
    rw [unresolved, unresolved, houtcome.listed_eq hlimit, houtcome'.listed_eq hlimit',
      graph.among_unresolved_iff targets hproblem, graph'.among_unresolved_iff targets' hproblem,
      hrelaxed.exists_missing_iff, hrelaxed.targetDiagnostics_eq htargets]
  · rw [houtcome.listed_eq hlimit, hcompletes.filter_ofBuilding, hcompletes.found_eq,
      hbuilt.found_eq]
  · rw [houtcome'.listed_eq hlimit', hcompletes'.filter_ofBuilding, hcompletes'.found_eq,
      hbuilt'.found_eq]

/-! ## A pump whose parts are asked for later -/

namespace Waterworks

def pump : Key := .plain "Pump"

def valve : Key := .plain "Valve"

def gauge : Key := .plain "Gauge"

def rotor : Key := .plain "Rotor"

/-- The key that asks for another one later. -/
def later (key : Key) : Key := { key with type := .lazyOf key.type }

def providePump (part : Key) : ProviderDecl := .ofMethod "Waterworks" "providePump" pump [part]

def provideValve : ProviderDecl := .ofMethod "Waterworks" "provideValve" valve []

/-- A rotor that is made of another one. -/
def provideRotor : ProviderDecl := .ofMethod "Waterworks" "provideRotor" rotor [rotor]

def sound (part : Key) : List ModuleDecl := [⟨"Waterworks", [providePump part, provideValve]⟩]

def flawed (part : Key) : List ModuleDecl := [⟨"Waterworks", [providePump part, provideRotor]⟩]

/-- The keeper who is given a pump, or asks for one later. -/
def keeper (key : Key) : TargetDecl := ⟨.plain "Keeper", [.field "pump" key]⟩

def result (modules : List ModuleDecl) (key : Key) : Except Rejection Wiring :=
  ((analyse .default modules [keeper key]).run #[]).1

def graph (modules : List ModuleDecl) : Graph := ((Graph.ofModules modules).run #[]).1.1

section

variable {part : Key} (h : part.deferredTarget? = none)

include h

theorem later_relaxed : part.Relaxed (later part) :=
  .deferred (Key.deferredTarget?_eq_none_iff.1 h) (.lazy part)

theorem providePump_relaxed : (providePump part).Relaxed (providePump (later part)) :=
  ⟨rfl, rfl, .cons (later_relaxed h) .nil, rfl⟩

theorem sound_relaxed : List.Forall₂ ModuleDecl.Relaxed (sound part) (sound (later part)) :=
  .cons ⟨rfl, .cons (providePump_relaxed h) (.cons ⟨rfl, rfl, .nil, rfl⟩ .nil)⟩ .nil

theorem flawed_relaxed : List.Forall₂ ModuleDecl.Relaxed (flawed part) (flawed (later part)) :=
  .cons ⟨rfl, .cons (providePump_relaxed h)
    (.cons ⟨rfl, rfl, .cons (.refl rotor) .nil, rfl⟩ .nil)⟩ .nil

theorem keeper_relaxed : List.Forall₂ TargetDecl.Relaxed [keeper part] [keeper (later part)] :=
  .cons ⟨rfl, .cons (.field (later_relaxed h)) .nil⟩ .nil

end

set_option maxRecDepth 4000 in
/-- A pump asks for its valve later, and so does the keeper for the pump: both analyses succeed.  A
    gauge that is asked for later is missing all the same, and the rotor that needs itself is no new
    circuit. -/
theorem later_kept :
    (∃ wiring wiring', result (sound valve) pump = .ok wiring ∧
      result (sound (later valve)) (later pump) = .ok wiring' ∧
      ∀ key, Key.Among (wiring.plan.instructions.map (·.key)) key ↔
        Key.Among (wiring'.plan.instructions.map (·.key)) key) ∧
    Key.Among (unresolved (result (flawed (later gauge)) (later pump))) gauge ∧
    (graph (flawed gauge)).Circuit [rotor] := by
  obtain ⟨hplan, -⟩ := analyse_relaxed (@sound_relaxed valve rfl)
    (@keeper_relaxed pump rfl) .default .default #[] #[]
  obtain ⟨-, hlists, -, hcircuits⟩ := analyse_relaxed (@flawed_relaxed gauge rfl)
    (@keeper_relaxed pump rfl) .default .default #[] #[]
  refine ⟨?_, ?_, ?_⟩
  · have hok : (result (sound valve) pump).isOk = true := rfl
    cases hresult : result (sound valve) pump with
    | ok wiring =>
      obtain ⟨wiring', hwiring', hkeys⟩ := hplan wiring hresult
      exact ⟨wiring, wiring', rfl, hwiring', hkeys⟩
    | error rejection =>
      rw [hresult] at hok
      cases hok
  · refine ((hlists rfl rfl).1 gauge).1 ⟨gauge, ?_, BEq.rfl⟩
    exact List.mem_singleton.2 rfl
  · refine hcircuits [rotor] ⟨rotor, [], rfl, List.isChain_pair.2 ?_⟩
    unfold Graph.Needs
    decide +kernel

end Waterworks

end Injection
