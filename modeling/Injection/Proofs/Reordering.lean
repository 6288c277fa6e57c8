/-
  The order of declarations does not matter.

  Modules that declare the same providers in different orders are accepted or
  rejected alike.  What a plan holds, and which keys and types a rejection
  complains about, is told by the declarations without their order.

  * `WellDeclared.reorder`: the declarations alone decide on success;
  * `Wired.instructions_matched`: the plans of two orders have the same
    instructions;
  * `Unmet`: which keys are unresolved, said without any walk;
  * `analyse_reordered`: all of it for two analyses.
-/
import Injection.Proofs.Analysis

namespace Injection

/-! ## Lists that match -/

/-- Two lists whose elements have pairwise different keys, and of which each element is related to
    one of the other list with an equal key, match up to order. -/
theorem exists_perm_forall₂ {α : Type} {f : α → Key} {R : α → α → Prop}
    (hkey : ∀ {a b}, R a b → (f a == f b) = true) {as : List α} :
    ∀ {bs : List α}, as.Pairwise (fun a b => (f a == f b) = false) →
      bs.Pairwise (fun a b => (f a == f b) = false) → (∀ a ∈ as, ∃ b ∈ bs, R a b) →
      (∀ b ∈ bs, ∃ a ∈ as, R a b) → ∃ matched, matched.Perm bs ∧ List.Forall₂ R as matched := by
  induction as with
  | nil =>
    intro bs _ _ _ hback
    obtain rfl : bs = [] := List.eq_nil_iff_forall_not_mem.2 fun b hb => by
      obtain ⟨_, ha, -⟩ := hback b hb
      cases ha
    exact ⟨[], .refl _, .nil⟩
  | cons a as ih =>
    intro bs has hbs hforth hback
    obtain ⟨hother, has⟩ := List.pairwise_cons.1 has
    obtain ⟨b, hb, hab⟩ := hforth a (by simp)
    obtain ⟨before, after, rfl⟩ := List.append_of_mem hb
    have hperm : (b :: (before ++ after)).Perm (before ++ b :: after) := List.perm_middle.symm
    have hsymm : ∀ {c d : α}, (f c == f d) = false → (f d == f c) = false := fun h => by
      rwa [BEq.comm]
    obtain ⟨hnew, hrest⟩ := List.pairwise_cons.1 ((hperm.pairwise_iff hsymm).2 hbs)
    -- what is related to other elements than `a` and `b` is not one of these two
    obtain ⟨matched, hmatched, hall⟩ := ih has hrest
      (fun c hc => by
        obtain ⟨d, hd, hcd⟩ := hforth c (List.mem_cons_of_mem _ hc)
        rcases List.mem_cons.1 (hperm.mem_iff.2 hd) with rfl | hd
        · have hac := hother c hc
          rw [BEq.trans (hkey hab) (BEq.symm (hkey hcd))] at hac
          cases hac
        · exact ⟨d, hd, hcd⟩)
      (fun d hd => by
        obtain ⟨c, hc, hcd⟩ := hback d (hperm.mem_iff.1 (List.mem_cons_of_mem _ hd))
        rcases List.mem_cons.1 hc with rfl | hc
        · have hbd := hnew d hd
          rw [BEq.trans (BEq.symm (hkey hab)) (hkey hcd)] at hbd
          cases hbd
        · exact ⟨c, hc, hcd⟩)
    exact ⟨b :: matched, (hmatched.cons b).trans hperm, .cons hab hall⟩

/-! ## Declarations in another order -/

section

variable {modules modules' : List ModuleDecl} {targets : List TargetDecl}
  (h : (declared modules).Perm (declared modules'))

include h

theorem supplied_reorder {key : Key} : Supplied modules key ↔ Supplied modules' key := by
  simp only [Supplied, h.mem_iff]

theorem demands_reorder : Demands modules = Demands modules' := by
  funext a b
  simp only [Demands, h.mem_iff]

theorem distinct_reorder :
    ((declared modules).Pairwise fun p q => (p.key == q.key) = false) ↔
      (declared modules').Pairwise fun p q => (p.key == q.key) = false :=
  h.pairwise_iff fun hne => by rwa [BEq.comm]

/-- To be well declared is a property of the providers, in whatever order they are declared. -/
theorem WellDeclared.reorder (hwell : WellDeclared modules targets) :
    WellDeclared modules' targets where
  distinct := (distinct_reorder h).1 hwell.distinct
  not_injector p hp := hwell.not_injector p (h.mem_iff.2 hp)
  concrete p hp := hwell.concrete p (h.mem_iff.2 hp)
  supplied p hp d hd := (supplied_reorder h).1 (hwell.supplied p (h.mem_iff.2 hp) d hd)
  acyclic := demands_reorder h ▸ hwell.acyclic
  targets target htarget r hr := (supplied_reorder h).1 (hwell.targets target htarget r hr)

end

/-! ## Plans -/

/-- Two instructions for equal keys that have the same parts. -/
structure Instruction.Same (i j : Instruction) : Prop where
  key_same : (i.key == j.key) = true
  dependencies_eq : i.dependencies = j.dependencies
  deferred_eq : i.deferred = j.deferred
  scope_eq : i.scope = j.scope
  origin_eq : i.origin = j.origin

theorem Instruction.Same.symm {i j : Instruction} (h : i.Same j) : j.Same i :=
  ⟨BEq.symm h.key_same, h.dependencies_eq.symm, h.deferred_eq.symm, h.scope_eq.symm,
    h.origin_eq.symm⟩

theorem Instruction.same_ofNode {key key' : Key} (h : (key == key') = true) (node : Graph.Node) :
    (ofNode key node).Same (ofNode key' node) := ⟨h, rfl, rfl, rfl, rfl⟩

namespace Wired

variable {modules modules' : List ModuleDecl} {wiring wiring' : Wiring}

/-- An instruction is that of a declared provider. -/
theorem exists_provider (h : Wired modules wiring) {i : Instruction}
    (hi : i ∈ wiring.plan.instructions) :
    (i.key == .injector) = false ∧ ∃ p ∈ declared modules, (p.key == i.key) = true ∧
      i = .ofNode i.key (.ofProvider p) := by
  rw [h.plan_eq] at hi
  obtain ⟨hinjector, node, hnode, hi⟩ := Plan.instruction_ofGraph _ hi
  refine ⟨hinjector, ?_⟩
  obtain ⟨key, hmem, hsame⟩ := Graph.node?_eq_some_iff.1 hnode
  rcases h.built.mem_nodes.1 hmem with ⟨p, hp, rfl, rfl⟩ | ⟨rfl, -⟩
  · exact ⟨p, hp, hsame, hi⟩
  · rw [BEq.comm, hsame] at hinjector
    cases hinjector

/-- A declared provider has its instruction. -/
theorem exists_instruction (h : Wired modules wiring) {p : ProviderDecl} (hp : p ∈ declared modules)
    (hinjector : (p.key == .injector) = false) :
    ∃ i ∈ wiring.plan.instructions, (p.key == i.key) = true ∧
      i = .ofNode i.key (.ofProvider p) := by
  have hnode : wiring.graph.graph.node? p.key = some (.ofProvider p) :=
    Graph.node?_eq_some_iff.2 ⟨p.key, h.built.mem_nodes.2 (.inl ⟨p, hp, rfl, rfl⟩), BEq.rfl⟩
  obtain ⟨i, hi, hsame⟩ :=
    Plan.exists_instruction _ (Graph.contains_iff_node?.2 ⟨_, hnode⟩) hinjector
  obtain ⟨-, node, hnode', hnodeOf⟩ := Plan.instruction_ofGraph _ hi
  rw [Graph.node?_congr hsame, hnode] at hnode'
  obtain rfl := Option.some.inj hnode'
  refine ⟨i, ?_, BEq.symm hsame, hnodeOf⟩
  rwa [h.plan_eq]

theorem distinct (h : Wired modules wiring) :
    wiring.plan.instructions.Pairwise fun i j => (i.key == j.key) = false := by
  rw [h.plan_eq]
  exact Plan.distinct_ofGraph _

/-- Each instruction of one plan is in the plan of another order. -/
theorem exists_same (h : Wired modules wiring) (h' : Wired modules' wiring')
    (hperm : (declared modules).Perm (declared modules')) {i : Instruction}
    (hi : i ∈ wiring.plan.instructions) : ∃ j ∈ wiring'.plan.instructions, i.Same j := by
  obtain ⟨hinjector, p, hp, hpi, hi⟩ := h.exists_provider hi
  have hnot : (p.key == .injector) = false := by
    rw [← Bool.not_eq_true] at hinjector ⊢
    exact fun hsame => hinjector (BEq.trans (BEq.symm hpi) hsame)
  obtain ⟨j, hj, hpj, hnode⟩ := h'.exists_instruction (hperm.mem_iff.1 hp) hnot
  refine ⟨j, hj, ?_⟩
  rw [hi, hnode]
  exact Instruction.same_ofNode (BEq.trans (BEq.symm hpi) hpj) _

/-- The plans of two orders of declarations have the same instructions, up to their order. -/
theorem instructions_matched (h : Wired modules wiring) (h' : Wired modules' wiring')
    (hperm : (declared modules).Perm (declared modules')) :
    ∃ matched, matched.Perm wiring'.plan.instructions ∧
      List.Forall₂ Instruction.Same wiring.plan.instructions matched := by
  refine exists_perm_forall₂ (fun hsame => hsame.key_same) h.distinct h'.distinct
    (fun i hi => h.exists_same h' hperm hi) fun j hj => ?_
  obtain ⟨i, hi, hsame⟩ := h'.exists_same h hperm.symm hj
  exact ⟨i, hi, hsame.symm⟩

end Wired

/-! ## Rejections -/

/-- All problems found are listed, as they are without a limit. -/
def Rejection.ListsAll (rejection : Rejection) (options : ReportOptions) : Prop :=
  options.limit = none ∨ rejection.omitted = 0

theorem Rejection.diagnostics_of_listsAll {options : ReportOptions} {problems : List Diagnostic}
    (h : (ofDiagnostics options.limit problems).ListsAll options) :
    (ofDiagnostics options.limit problems).diagnostics = problems := by
  unfold ListsAll at h
  cases hlimit : options.limit with
  | none => rfl
  | some limit =>
    rw [hlimit] at h
    have homitted : problems.length - limit = 0 := h.resolve_left (Option.some_ne_none limit)
    exact List.take_of_length_le (by omega)

/-- Whether a provider or a target needs a key that is not supplied. -/
def Unmet (modules : List ModuleDecl) (targets : List TargetDecl) (key : Key) : Prop :=
  ¬ Supplied modules key ∧
    ((∃ p ∈ declared modules, ∃ d ∈ p.dependencies, (d.required == key) = true) ∨
      ∃ target ∈ targets, ∃ r ∈ target.requirements, (r.2.required == key) = true)

theorem unmet_reorder {modules modules' : List ModuleDecl} {targets : List TargetDecl}
    (h : (declared modules).Perm (declared modules')) {key : Key} :
    Unmet modules targets key ↔ Unmet modules' targets key := by
  simp only [Unmet, supplied_reorder h, h.mem_iff]

namespace Built

variable {modules : List ModuleDecl} {graph : Graph} {targets : List TargetDecl} {key : Key}

/-- Equal keys are supplied alike. -/
theorem not_contains_congr (h : Built modules graph) {key' : Key} (hsame : (key == key') = true) :
    graph.contains key = false ↔ ¬ Supplied modules key' := by
  rw [← Bool.not_eq_true, Graph.contains_congr hsame, h.contains_iff]

theorem exists_missing_iff (h : Built modules graph) :
    (∃ entry ∈ graph.missing, (entry.key == key) = true) ↔ ¬ Supplied modules key ∧
      ∃ p ∈ declared modules, ∃ d ∈ p.dependencies, (d.required == key) = true := by
  rw [Graph.exists_missing_iff, h.not_contains_congr BEq.rfl]
  refine and_congr_right fun _ => ⟨?_, ?_⟩
  · rintro ⟨k, node, hnode, d, hd, hsame⟩
    obtain ⟨_, hmem, -⟩ := Graph.node?_eq_some_iff.1 hnode
    rcases h.mem_nodes.1 hmem with ⟨p, hp, rfl, rfl⟩ | ⟨-, rfl⟩
    · obtain ⟨e, he, rfl⟩ := mem_dependencies.1 hd
      exact ⟨p, hp, e, he, hsame⟩
    · cases hd
  · rintro ⟨p, hp, d, hd, hsame⟩
    have hnode : graph.node? p.key = some (.ofProvider p) :=
      Graph.node?_eq_some_iff.2 ⟨p.key, h.mem_nodes.2 (.inl ⟨p, hp, rfl, rfl⟩), BEq.rfl⟩
    exact ⟨p.key, _, hnode, _, mem_dependencies.2 ⟨d, hd, rfl⟩, hsame⟩

theorem exists_targetDiagnostic_iff (h : Built modules graph) :
    (∃ d ∈ graph.targetDiagnostics targets, (d.key == key) = true) ↔ ¬ Supplied modules key ∧
      ∃ target ∈ targets, ∃ r ∈ target.requirements, (r.2.required == key) = true := by
  constructor
  · rintro ⟨diagnostic, hmem, hsame⟩
    obtain ⟨r, hr, hdiagnostic⟩ := List.mem_filterMap.1 hmem
    obtain ⟨target, htarget, hr⟩ := List.mem_flatMap.1 hr
    obtain ⟨hcontains, hdiagnostic⟩ := Option.ite_none_left_eq_some.1 hdiagnostic
    obtain rfl := Option.some.inj hdiagnostic
    rw [Bool.not_eq_true] at hcontains
    exact ⟨(h.not_contains_congr hsame).1 hcontains, target, htarget, r, hr, hsame⟩
  · rintro ⟨hnot, target, htarget, r, hr, hsame⟩
    have hcontains := (h.not_contains_congr hsame).2 hnot
    refine ⟨⟨r.2.required, .unresolved, r.1⟩, List.mem_filterMap.2
      ⟨r, List.mem_flatMap.2 ⟨target, htarget, hr⟩, ?_⟩, hsame⟩
    exact if_neg (by simp [hcontains])

/-- A key is needed and not supplied exactly if it is that of a missing dependency or that of a
    problem of a target. -/
theorem unmet_iff (h : Built modules graph) : Unmet modules targets key ↔
    (∃ entry ∈ graph.missing, (entry.key == key) = true) ∨
      ∃ d ∈ graph.targetDiagnostics targets, (d.key == key) = true := by
  rw [h.exists_missing_iff, h.exists_targetDiagnostic_iff, Unmet, and_or_left]

end Built

/-! ## Kinds of problems -/

/-- Of problems of one kind, either all or none are of a certain kind. -/
theorem filter_problem {diagnostics : List Diagnostic} {problem : Problem}
    (h : ∀ d ∈ diagnostics, d.problem = problem) (wanted : Problem) :
    diagnostics.filter (fun d => d.problem = wanted) =
      if problem = wanted then diagnostics else [] := by
  split
  · next heq => exact List.filter_eq_self.2 fun d hd => by simp [h d hd, heq]
  · next hne => exact List.filter_eq_nil_iff.2 fun d hd => by simp [h d hd, hne]

theorem Graph.problem_of_mem_targetDiagnostics {graph : Graph} {targets : List TargetDecl}
    {d : Diagnostic} (hd : d ∈ graph.targetDiagnostics targets) : d.problem = .unresolved := by
  obtain ⟨r, -, hd⟩ := List.mem_filterMap.1 hd
  obtain ⟨-, hd⟩ := Option.ite_none_left_eq_some.1 hd
  rw [← Option.some.inj hd]

/-- The problems of one kind: those found before, then the missing dependencies, the keys on cycles
    and the needs of targets, if they are of this kind. -/
theorem Graph.filter_diagnostics (graph : Graph) (targets : List TargetDecl)
    (found : List Diagnostic) (wanted : Problem) :
    (graph.diagnostics targets found).filter (fun d => d.problem = wanted) =
      found.filter (fun d => d.problem = wanted) ++
        ((if .unresolved = wanted then graph.missing.map (MissingKey.diagnostic graph) else []) ++
          ((if .cyclic = wanted then graph.cycles.map graph.cycleDiagnostic else []) ++
            if .unresolved = wanted then graph.targetDiagnostics targets else [])) := by
  have hmissing : ∀ d ∈ graph.missing.map (MissingKey.diagnostic graph),
      d.problem = .unresolved := by
    simp [MissingKey.diagnostic]
  have hcycles : ∀ d ∈ graph.cycles.map graph.cycleDiagnostic, d.problem = .cyclic := by
    simp [cycleDiagnostic]
  rw [Graph.diagnostics, List.filter_append, List.filter_append, List.filter_append,
    filter_problem hmissing, filter_problem hcycles,
    filter_problem fun d => problem_of_mem_targetDiagnostics]

/-- The keys of unresolved problems, if there were none of them before. -/
theorem Graph.among_unresolved_iff (graph : Graph) (targets : List TargetDecl)
    {found : List Diagnostic} (hfound : ∀ d ∈ found, d.problem ≠ .unresolved) (key : Key) :
    Key.Among (((graph.diagnostics targets found).filter
        fun d => d.problem = .unresolved).map (·.key)) key ↔
      (∃ entry ∈ graph.missing, (entry.key == key) = true) ∨
        ∃ d ∈ graph.targetDiagnostics targets, (d.key == key) = true := by
  have hnone : found.filter (fun d => d.problem = .unresolved) = [] :=
    List.filter_eq_nil_iff.2 fun d hd => by simpa using hfound d hd
  rw [graph.filter_diagnostics, hnone]
  simp [Key.Among, MissingKey.diagnostic, or_and_right, exists_or]

/-- An analysis of providers with pairwise different keys, none of them the injector's, that lists
    all problems has for unresolved keys those that are needed and not supplied, and for problems
    with types the open types of the providers. -/
theorem analyse_lists (options : ReportOptions) {modules : List ModuleDecl}
    (targets : List TargetDecl) (hapart : Graph.Draft.Apart (declared modules)) :
    (analyse options modules targets).Ensures fun result => ∀ rejection,
      result = .error rejection → rejection.ListsAll options →
        (∀ key, Key.Among (rejection.keysOf .unresolved) key ↔ Unmet modules targets key) ∧
        rejection.diagnostics.filter (fun d => d.problem = .nonConcrete) =
          Graph.Draft.openDiagnostics (declared modules) := by
  refine (analyse_outcome options modules targets).mono ?_
  rintro result ⟨graph, found, hcompletes, houtcome⟩ rejection rfl hall
  have hfinished := hcompletes.finished
  have hbuilt : Built modules graph := hfinished.nodes_eq hapart
  obtain rfl : found = Graph.Draft.openDiagnostics (declared modules) := hfinished.found_eq hapart
  have hopen : ∀ d ∈ Graph.Draft.openDiagnostics (declared modules), d.problem = .nonConcrete := by
    intro d hd
    obtain ⟨p, -, rfl⟩ := List.mem_map.1 hd
    rfl
  cases houtcome with
  | rejected =>
    rw [Rejection.keysOf, Rejection.diagnostics_of_listsAll hall]
    refine ⟨fun key => ?_, ?_⟩
    · rw [graph.among_unresolved_iff targets (fun d hd => by simp [hopen d hd]), hbuilt.unmet_iff]
    · rw [graph.filter_diagnostics, filter_problem hopen]
      simp

/-! ## Two analyses -/

/-- Two analyses of the same providers in different orders, with the same targets and options.  Both
    succeed or neither does.  If they succeed, the plans have the same instructions.  If they fail,
    and the keys of the providers and of the injector are pairwise different, and all problems are
    listed, the same keys are unresolved, and the same types are not concrete. -/
theorem analyse_reordered (options : ReportOptions) (targets : List TargetDecl)
    {modules modules' : List ModuleDecl} (h : (declared modules).Perm (declared modules'))
    (log log' : Array Event) :
    let result := ((analyse options modules targets).run log).1
    let result' := ((analyse options modules' targets).run log').1
    ((∃ wiring, result = .ok wiring) ↔ ∃ wiring, result' = .ok wiring) ∧
      (∀ wiring wiring', result = .ok wiring → result' = .ok wiring' →
        ∃ matched, matched.Perm wiring'.plan.instructions ∧
          List.Forall₂ Instruction.Same wiring.plan.instructions matched) ∧
      ((declared modules).Pairwise (fun p q => (p.key == q.key) = false) →
        (∀ p ∈ declared modules, (p.key == .injector) = false) →
        ∀ rejection rejection', result = .error rejection → result' = .error rejection' →
          rejection.ListsAll options → rejection'.ListsAll options →
          (∀ key, Key.Among (rejection.keysOf .unresolved) key ↔
            Key.Among (rejection'.keysOf .unresolved) key) ∧
          (rejection.diagnostics.filter fun d => d.problem = .nonConcrete).Perm
            (rejection'.diagnostics.filter fun d => d.problem = .nonConcrete)) := by
  intro result result'
  obtain ⟨hok, hwired⟩ := analyse_ensures options modules targets log
  obtain ⟨hok', hwired'⟩ := analyse_ensures options modules' targets log'
  refine ⟨?_, ?_, ?_⟩
  · rw [hok, hok']
    exact ⟨.reorder h, .reorder h.symm⟩
  · intro wiring wiring' hwiring hwiring'
    exact (hwired wiring hwiring).instructions_matched (hwired' wiring' hwiring') h
  · intro hdistinct hinjector rejection rejection' hrejection hrejection' hall hall'
    have hapart' : Graph.Draft.Apart (declared modules') :=
      ⟨(distinct_reorder h).1 hdistinct, fun p hp => hinjector p (h.mem_iff.2 hp)⟩
    obtain ⟨hunresolved, hopen⟩ :=
      analyse_lists options targets ⟨hdistinct, hinjector⟩ log rejection hrejection hall
    obtain ⟨hunresolved', hopen'⟩ :=
      analyse_lists options targets hapart' log' rejection' hrejection' hall'
    refine ⟨fun key => ?_, ?_⟩
    · rw [hunresolved, hunresolved', unmet_reorder h]
    · rw [hopen, hopen']
      exact (h.filter _).map _

/-! ## Workshops in two orders -/

namespace Workshop

def engine : Key := .plain "Engine"

def wheel : Key := .plain "Wheel"

def provideEngine : ProviderDecl := .ofMethod "EngineModule" "provideEngine" engine []

def provideCar (dependencies : List Key) : ProviderDecl :=
  .ofMethod "CarModule" "provideCar" (.plain "Car") dependencies

/-- A provider for lists of any type. -/
def provideParts : ProviderDecl :=
  .ofMethod "EngineModule" "provideParts" (.unqualified (.applied none (.plain "List") [.var "T"]))
    []

def sound : List ModuleDecl :=
  [⟨"CarModule", [provideCar [engine]]⟩, ⟨"EngineModule", [provideEngine]⟩]

def soundReordered : List ModuleDecl := [⟨"Workshop", [provideEngine, provideCar [engine]]⟩]

/-- Nothing provides wheels, and the lists are of an open type. -/
def flawed : List ModuleDecl :=
  [⟨"CarModule", [provideCar [engine, wheel]]⟩, ⟨"EngineModule", [provideEngine, provideParts]⟩]

def flawedReordered : List ModuleDecl :=
  [⟨"Workshop", [provideParts, provideEngine, provideCar [engine, wheel]]⟩]

theorem soundReordered_perm : (declared sound).Perm (declared soundReordered) :=
  (List.reverse_perm _).symm

theorem flawedReordered_perm : (declared flawed).Perm (declared flawedReordered) :=
  (List.reverse_perm _).symm

def result (modules : List ModuleDecl) : Except Rejection Wiring :=
  ((analyse .default modules []).run #[]).1

def rejection (modules : List ModuleDecl) : Rejection :=
  match result modules with
  | .error rejection => rejection
  | .ok _ => ⟨[], 0⟩

set_option maxRecDepth 4000 in
/-- Two sound orders have matching plans, and two flawed ones complain about the same. -/
theorem orders_agree :
    (∃ wiring wiring', result sound = .ok wiring ∧ result soundReordered = .ok wiring' ∧
      ∃ matched, matched.Perm wiring'.plan.instructions ∧
        List.Forall₂ Instruction.Same wiring.plan.instructions matched) ∧
    Key.Among ((rejection flawedReordered).keysOf .unresolved) wheel ∧
    ((rejection flawedReordered).diagnostics.filter
      fun d => d.problem = .nonConcrete).length = 1 := by
  constructor
  · obtain ⟨haccepted, hplans, -⟩ :=
      analyse_reordered .default [] soundReordered_perm #[] #[]
    have hok : (result sound).isOk = true := rfl
    obtain ⟨wiring, hwiring⟩ : ∃ wiring, result sound = .ok wiring := by
      cases hresult : result sound with
      | ok wiring => exact ⟨wiring, rfl⟩
      | error rejection =>
        rw [hresult] at hok
        cases hok
    obtain ⟨wiring', hwiring'⟩ := haccepted.1 ⟨wiring, hwiring⟩
    exact ⟨wiring, wiring', hwiring, hwiring', hplans wiring wiring' hwiring hwiring'⟩
  · obtain ⟨-, -, hrejected⟩ :=
      analyse_reordered .default [] flawedReordered_perm #[] #[]
    obtain ⟨hunresolved, hopen⟩ := hrejected (by decide) (by decide) (rejection flawed)
      (rejection flawedReordered) rfl rfl (.inl rfl) (.inl rfl)
    refine ⟨(hunresolved wheel).1 ⟨wheel, ?_, BEq.rfl⟩, ?_⟩
    · exact List.mem_singleton.2 rfl
    · rw [← hopen.length_eq]
      rfl

end Workshop

end Injection
