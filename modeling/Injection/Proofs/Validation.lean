/-
  What a validation decides and what it reports.

  * `Graph.Problems`: the problems of a graph, read off the graph, the targets
    and what was found before, without any options;
  * `Graph.Verdict`: what a validation with certain options makes of a list of
    problems, in its result, in the text of its report and in its events;
  * `Graph.validate_verdict`: every validation of a graph gives the verdict on
    its problems, so the options shape the report and never the decision.
-/
import Injection.Proofs.Cycles
import Injection.Proofs.MissingSearch
import Injection.Graph.Validation

namespace Injection

/-! ## Reports -/

namespace Rejection

variable {limit : Option Nat} {problems : List Diagnostic}

/-- The lines of a report on a number of problems, of which some are listed. -/
def lines (count : Nat) (listed : List Diagnostic) : List String :=
  ("dependency graph is invalid (" ++ toString count ++ " problem"
      ++ (if count = 1 then "" else "s") ++ ")")
    :: (listed.map (fun d => "  - " ++ d.render)
      ++ if listed.length = count then []
        else ["  ... and " ++ toString (count - listed.length) ++ " more"])

/-- Lines after the first one stand behind a line break each. -/
theorem intercalate_newline (first : String) (rest : List String) :
    "\n".intercalate (first :: rest) = first ++ String.join (rest.map ("\n" ++ ·)) := by
  induction rest generalizing first with
  | nil => simp
  | cons second rest ih =>
    rw [String.intercalate_cons_cons, ih, List.map_cons, String.join_cons]
    simp only [String.append_assoc]

/-- The text of a rejection consists of the lines on all its problems. -/
theorem render_eq (rejection : Rejection) :
    rejection.render = "\n".intercalate (lines rejection.total rejection.diagnostics) := by
  have hentry : "\n" ++ "  - " = "\n  - " := by decide
  have hmore : "\n" ++ "  ... and " = "\n  ... and " := by decide
  have hall : rejection.diagnostics.length = rejection.total ↔ rejection.omitted = 0 := by
    rw [total]
    omega
  have homitted : rejection.total - rejection.diagnostics.length = rejection.omitted :=
    Nat.add_sub_cancel_left _ _
  rw [lines, intercalate_newline, List.map_append, String.join_append, List.map_map, homitted]
  unfold render
  simp only [Function.comp_def, ← String.append_assoc, hentry, hall]
  by_cases h : rejection.omitted = 0
  · simp only [if_pos h, List.map_nil, String.join_nil]
  · simp only [if_neg h, List.map_cons, List.map_nil, String.join_cons, String.join_nil,
      ← String.append_assoc, hmore, String.append_empty]

/-- The problems listed are the first ones, up to the limit if there is one. -/
theorem diagnostics_ofDiagnostics (limit : Option Nat) (problems : List Diagnostic) :
    (ofDiagnostics limit problems).diagnostics =
      problems.take (limit.elim problems.length (min · problems.length)) := by
  cases limit with
  | none => exact List.take_length.symm
  | some limit => exact List.take_eq_take_min

/-- A problem is listed or counted as left out. -/
theorem total_ofDiagnostics (limit : Option Nat) (problems : List Diagnostic) :
    (ofDiagnostics limit problems).total = problems.length := by
  cases limit with
  | none => rfl
  | some limit =>
    show (problems.take limit).length + (problems.length - limit) = problems.length
    rw [List.length_take]
    omega

end Rejection

/-! ## Events -/

/-- Whether an event is the warning about one problem of a graph. -/
def Event.isProblem (event : Event) : Bool :=
  match event.parts with
  | (.warn, message, _) => message == "Dependency graph problem"
  | _ => false

/-- One event for each problem, in order. -/
theorem Logged.forM_emit (problems : List Diagnostic) (log : Array Event) :
    ((problems.forM fun d => Logged.emit (.problemFound d)).run log).2.toList =
      log.toList ++ problems.map .problemFound := by
  induction problems generalizing log with
  | nil => exact (List.append_nil _).symm
  | cons first problems ih =>
    have hrest := ih (log.push (.problemFound first))
    rw [Array.toList_push, List.append_assoc] at hrest
    exact hrest

namespace Graph

/-! ## Problems -/

/-- A problem of a key, at the place of the provider of a key that is to blame. -/
structure Blames (graph : Graph) (problem : Problem) (key blamed : Key) (d : Diagnostic) :
    Prop where
  key_eq : d.key = key
  problem_eq : d.problem = problem
  located : ∃ node, graph.node? blamed = some node ∧ d.location = node.location

/-- What a list of classes needs in the order of its declaration, each with the class and the place
    that need it. -/
def targetNeeds (targets : List TargetDecl) : List (TargetDecl × InjectionPoint × Key) :=
  targets.flatMap fun target => target.points.flatMap fun point =>
    point.keys.map fun key => (target, point, key)

/-- Whether what stands behind a key is one of the keys of the graph. -/
def provides (graph : Graph) (key : Key) : Bool := graph.keys.any (· == key.required)

/-- The problems of a graph: those found before; each missing dependency, at the place of the key
    that needs it; each key found on a cycle, at its own place; and each need of a target that the
    graph does not provide, at the place in the target. -/
inductive Problems (graph : Graph) (targets : List TargetDecl) (found : List Diagnostic) :
    List Diagnostic → Prop
  | intro {unresolved cyclic unmet} :
    List.Forall₂ (fun entry => graph.Blames .unresolved entry.key entry.requiredBy)
      graph.missing unresolved →
    List.Forall₂ (fun key => graph.Blames .cyclic key key) graph.cycles cyclic →
    List.Forall₂ (fun need d => d = Diagnostic.mk need.2.2.required .unresolved
        (need.1.type.render ++ "::" ++ need.2.1.name))
      ((targetNeeds targets).filter fun need => !graph.provides need.2.2) unmet →
    Problems graph targets found (found ++ (unresolved ++ (cyclic ++ unmet)))

variable {graph : Graph}

theorem Blames.unique {problem : Problem} {key blamed : Key} {d d' : Diagnostic}
    (h : graph.Blames problem key blamed d) (h' : graph.Blames problem key blamed d') : d = d' := by
  obtain ⟨hkey, hproblem, node, hnode, hlocation⟩ := h
  obtain ⟨hkey', hproblem', node', hnode', hlocation'⟩ := h'
  obtain rfl := Option.some.inj (hnode.symm.trans hnode')
  cases d
  cases d'
  simp_all

/-- A graph has one list of problems. -/
theorem Problems.unique {targets : List TargetDecl} {found problems problems' : List Diagnostic}
    (h : graph.Problems targets found problems) (h' : graph.Problems targets found problems') :
    problems = problems' := by
  obtain ⟨hunresolved, hcyclic, hunmet⟩ := h
  obtain ⟨hunresolved', hcyclic', hunmet'⟩ := h'
  rw [List.right_unique_forall₂' (fun _ _ _ h h' => h.unique h') hunresolved hunresolved',
    List.right_unique_forall₂' (fun _ _ _ h h' => h.unique h') hcyclic hcyclic',
    List.right_unique_forall₂' (fun _ _ _ h h' => h.trans h'.symm) hunmet hunmet']

/-- The place of a provided key is that of its provider. -/
theorem locationOf_of_node? {key : Key} {node : Node} (h : graph.node? key = some node) :
    graph.locationOf key = node.location := by
  rw [locationOf, h]

theorem contains_eq_any (graph : Graph) (key : Key) :
    graph.contains key = graph.keys.any (· == key) := by
  rw [Bool.eq_iff_iff, contains_iff_keys, List.any_eq_true]
  rfl

theorem blames_missing : List.Forall₂ (fun entry => graph.Blames .unresolved entry.key
    entry.requiredBy) graph.missing (graph.missing.map (MissingKey.diagnostic graph)) := by
  rw [List.forall₂_map_right_iff, List.forall₂_same]
  intro entry hentry
  obtain ⟨-, node, hnode, -⟩ := needed_of_mem_missing hentry
  exact ⟨rfl, rfl, node, hnode, locationOf_of_node? hnode⟩

theorem blames_cycles : List.Forall₂ (fun key => graph.Blames .cyclic key key) graph.cycles
    (graph.cycles.map graph.cycleDiagnostic) := by
  rw [List.forall₂_map_right_iff, List.forall₂_same]
  intro key hkey
  -- a key on a cycle has dependencies, so it has a node
  obtain ⟨_, hneeds, -⟩ := Relation.TransGen.head'_iff.1 (trans_needs_of_mem_cycles hkey)
  obtain ⟨node, hnode⟩ := contains_iff_node?.1 hneeds.contains
  exact ⟨rfl, rfl, node, hnode, locationOf_of_node? hnode⟩

theorem targetDiagnostics_eq (graph : Graph) (targets : List TargetDecl) :
    graph.targetDiagnostics targets =
      ((targetNeeds targets).filter fun need => !graph.provides need.2.2).map fun need =>
        ⟨need.2.2.required, .unresolved, need.1.type.render ++ "::" ++ need.2.1.name⟩ := by
  have hneeds : targets.flatMap TargetDecl.requirements =
      (targetNeeds targets).map fun need =>
        (need.1.type.render ++ "::" ++ need.2.1.name, need.2.2) := by
    simp only [targetNeeds, List.map_flatMap, List.map_map, Function.comp_def]
    rfl
  rw [targetDiagnostics, hneeds, List.filterMap_map, ← List.filterMap_eq_filter,
    List.map_filterMap]
  refine List.filterMap_congr fun need _ => ?_
  show (if graph.contains need.2.2.required then none else _) = _
  rw [contains_eq_any, Option.guard, ← provides]
  cases graph.provides need.2.2 with
  | true => rfl
  | false => rfl

/-- A graph has the problems that its validation looks at. -/
theorem problems_diagnostics (graph : Graph) (targets : List TargetDecl)
    (found : List Diagnostic) :
    graph.Problems targets found (graph.diagnostics targets found) := by
  refine .intro blames_missing blames_cycles ?_
  rw [targetDiagnostics_eq, List.forall₂_map_right_iff, List.forall₂_same]
  exact fun _ _ => rfl

/-! ## Verdicts -/

/-- What a validation with certain options makes of a list of problems: its result, and the events
    that it reports. -/
structure Verdict (graph : Graph) (options : ReportOptions) (problems : List Diagnostic)
    (result : Except Rejection ValidGraph) (events : List Event) : Prop where
  /-- Without problems the graph itself is accepted. -/
  accepted : problems = [] → ∃ valid, result = .ok valid ∧ valid.graph = graph
  /-- With problems it is rejected.  The first ones are listed, as far as the limit goes; the others
      are counted, and the report tells the number of all. -/
  rejected : problems ≠ [] → ∃ rejection, result = .error rejection ∧
    rejection.diagnostics =
      problems.take (options.limit.elim problems.length (min · problems.length)) ∧
    rejection.diagnostics.length + rejection.omitted = problems.length ∧
    rejection.render = "\n".intercalate (Rejection.lines problems.length rejection.diagnostics)
  /-- Each problem has its event, listed or not, unless the options keep all of them quiet. -/
  reported : events.filter Event.isProblem =
    if options.logProblems then problems.map .problemFound else []

/-- All events of problems are warnings about problems. -/
theorem filter_isProblem (problems : List Diagnostic) :
    (problems.map Event.problemFound).filter Event.isProblem = problems.map .problemFound := by
  rw [List.filter_eq_self]
  intro event hevent
  obtain ⟨d, -, rfl⟩ := List.mem_map.1 hevent
  rfl

theorem validate_run (graph : Graph) (options : ReportOptions) (targets : List TargetDecl)
    (found : List Diagnostic) (log : Array Event) :
    ∃ events, ((graph.validate options targets found).run log).2.toList = log.toList ++ events ∧
      graph.Verdict options (graph.diagnostics targets found)
        ((graph.validate options targets found).run log).1 events := by
  rw [validate]
  split
  · next hnone =>
    refine ⟨[.graphValid graph.size], Array.toList_push .., fun _ => ⟨_, rfl, rfl⟩, ?_, ?_⟩
    · exact fun h => absurd hnone h
    · rw [hnone, List.map_nil, ite_self]
      rfl
  · next first others hsome =>
    have hrejected : ∀ events : List Event,
        events.filter Event.isProblem =
          (if options.logProblems then (first :: others).map .problemFound else []) →
        graph.Verdict options (first :: others)
          (.error (.ofDiagnostics options.limit (first :: others))) events := by
      refine fun events hevents => ⟨nofun, fun _ => ⟨_, rfl, ?_, ?_, ?_⟩, hevents⟩
      · exact Rejection.diagnostics_ofDiagnostics _ _
      · exact Rejection.total_ofDiagnostics _ _
      · rw [Rejection.render_eq, Rejection.total_ofDiagnostics]
    rw [hsome]
    cases hlog : options.logProblems with
    | true =>
      refine ⟨(first :: others).map .problemFound, Logged.forM_emit (first :: others) log,
        hrejected _ ?_⟩
      rw [hlog, filter_isProblem]
      rfl
    | false =>
      refine ⟨[], (List.append_nil _).symm, hrejected _ ?_⟩
      rw [hlog]
      rfl

/-- Two verdicts on the same problems accept the same. -/
theorem Verdict.accepts {options options' : ReportOptions} {problems : List Diagnostic}
    {result result' : Except Rejection ValidGraph} {events events' : List Event}
    (h : graph.Verdict options problems result events)
    (h' : graph.Verdict options' problems result' events') {valid : ValidGraph}
    (hvalid : result = .ok valid) : result' = .ok valid := by
  have hnone : problems = [] := by
    by_contra hsome
    obtain ⟨rejection, hrejection, -⟩ := h.rejected hsome
    rw [hrejection] at hvalid
    cases hvalid
  obtain ⟨⟨_, _, _⟩, hfirst, rfl⟩ := h.accepted hnone
  obtain ⟨⟨_, _, _⟩, hsecond, rfl⟩ := h'.accepted hnone
  rw [hsecond, ← hvalid, hfirst]

/-- Whatever the options, a validation gives the verdict on the problems of the graph; and any two
    validations of a graph accept the same, if they accept it at all. -/
theorem validate_verdict (graph : Graph) (targets : List TargetDecl) (found : List Diagnostic) :
    ∃ problems, (∀ others, graph.Problems targets found others ↔ others = problems) ∧
      (∀ options log, ∃ events,
        ((graph.validate options targets found).run log).2.toList = log.toList ++ events ∧
        graph.Verdict options problems ((graph.validate options targets found).run log).1 events) ∧
      ∀ options options' log log' valid,
        ((graph.validate options targets found).run log).1 = .ok valid ↔
          ((graph.validate options' targets found).run log').1 = .ok valid := by
  have hproblems := graph.problems_diagnostics targets found
  refine ⟨graph.diagnostics targets found, fun others => ⟨fun h => h.unique hproblems, ?_⟩,
    fun options log => graph.validate_run options targets found log, ?_⟩
  · rintro rfl
    exact hproblems
  intro options options' log log' valid
  obtain ⟨_, _, hfirst⟩ := graph.validate_run options targets found log
  obtain ⟨_, _, hsecond⟩ := graph.validate_run options' targets found log'
  exact ⟨hfirst.accepts hsecond, hsecond.accepts hfirst⟩

end Graph

end Injection
