/-
  Validation: every check over a graph, and graphs that passed.

  All problems are collected before deciding: those found while building the
  graph, dependencies that nothing provides, keys that take part in cycles, and
  injection targets that need what is not provided.  The options of the report
  have no part in the decision.
-/
import Injection.Event
import Injection.Graph.Cycle
import Injection.Graph.Missing
import Injection.Report.Options

namespace Injection

/-- A graph in which every dependency is provided and the search finds no cycle. -/
structure ValidGraph where
  graph : Graph
  missing_eq_nil : graph.missing = []
  cycles_eq_nil : graph.cycles = []

namespace Graph

/-- A missing dependency as a problem, at the place of the key that needs it. -/
def MissingKey.diagnostic (graph : Graph) (entry : MissingKey) : Diagnostic :=
  ⟨entry.key, .unresolved, graph.locationOf entry.requiredBy⟩

/-- A key that takes part in a cycle as a problem, at its own place. -/
def cycleDiagnostic (graph : Graph) (key : Key) : Diagnostic :=
  ⟨key, .cyclic, graph.locationOf key⟩

/-- What injection targets need and the graph does not provide. -/
def targetDiagnostics (graph : Graph) (targets : List TargetDecl) : List Diagnostic :=
  (targets.flatMap TargetDecl.requirements).filterMap fun (location, key) =>
    if graph.contains key.required then none else some ⟨key.required, .unresolved, location⟩

/-- All problems of a graph, after those found while building it. -/
def diagnostics (graph : Graph) (targets : List TargetDecl) (found : List Diagnostic) :
    List Diagnostic :=
  found ++ (graph.missing.map (MissingKey.diagnostic graph)
    ++ (graph.cycles.map graph.cycleDiagnostic ++ graph.targetDiagnostics targets))

/-- A graph without problems is valid. -/
def validOfDiagnostics (graph : Graph) {targets : List TargetDecl} {found : List Diagnostic}
    (h : graph.diagnostics targets found = []) : ValidGraph :=
  have h' := (List.append_eq_nil_iff.1 h).2
  ⟨graph, List.map_eq_nil_iff.1 (List.append_eq_nil_iff.1 h').1,
    List.map_eq_nil_iff.1 (List.append_eq_nil_iff.1 (List.append_eq_nil_iff.1 h').2).1⟩

/-- Decides whether a graph is valid, and reports its problems if it is not. -/
def validate (options : ReportOptions) (targets : List TargetDecl) (graph : Graph)
    (found : List Diagnostic) : Logged (Except Rejection ValidGraph) := do
  match h : graph.diagnostics targets found with
  | [] =>
    Logged.emit (.graphValid graph.size)
    return .ok (graph.validOfDiagnostics h)
  | first :: others =>
    if options.logProblems then (first :: others).forM fun d => Logged.emit (.problemFound d)
    return .error (.ofDiagnostics options.limit (first :: others))

end Graph

end Injection
