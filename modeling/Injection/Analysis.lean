/-
  A run over the declarations of a program: they become a graph, the graph is
  validated, and a valid graph gets a plan.
-/
import Injection.Graph.Draft
import Injection.Plan

namespace Injection

/-- The result of a run that found no problem. -/
structure Wiring where
  graph : ValidGraph
  plan : Plan

/-- Analyses modules and injection targets.  Any problem rejects all of them. -/
def analyse (options : ReportOptions) (modules : List ModuleDecl) (targets : List TargetDecl) :
    Logged (Except Rejection Wiring) := do
  Logged.emit (.analysisStarted modules.length targets.length)
  let (graph, found) ← Graph.ofModules modules
  match ← graph.validate options targets found with
  | .error rejection =>
    Logged.emit (.analysisFailed rejection.total)
    return .error rejection
  | .ok valid =>
    let plan := Plan.ofGraph valid
    Logged.emit (.analysisSucceeded valid.graph.size plan.size)
    return .ok ⟨valid, plan⟩

end Injection
