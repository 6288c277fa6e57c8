/-
  Problems of a dependency graph, and the rejection that reports them.
-/
import Injection.Key.Basic

namespace Injection

/-- What can be wrong with a key of a dependency graph. -/
inductive Problem where
  /-- A second provider for the key. -/
  | duplicate
  /-- Something depends on the key, and nothing provides it. -/
  | unresolved
  /-- The key needs itself for its own construction. -/
  | cyclic
  /-- The provided type mentions a wildcard or a type variable. -/
  | nonConcrete
  deriving DecidableEq

def Problem.render : Problem → String
  | .duplicate => "duplicate provider"
  | .unresolved => "unresolved dependency"
  | .cyclic => "cyclic dependency"
  | .nonConcrete => "non-concrete provided type"

/-- A problem of a key, and where it was found. -/
structure Diagnostic where
  key : Key
  problem : Problem
  location : String

/-- The text of a diagnostic without its location. -/
def Diagnostic.message (diagnostic : Diagnostic) : String :=
  diagnostic.problem.render ++ ": " ++ diagnostic.key.render

def Diagnostic.render (diagnostic : Diagnostic) : String :=
  diagnostic.location ++ ": " ++ diagnostic.message

/-- The outcome of a run that found problems: those listed, and the number of those left out. -/
structure Rejection where
  diagnostics : List Diagnostic
  omitted : Nat

namespace Rejection

def total (rejection : Rejection) : Nat := rejection.diagnostics.length + rejection.omitted

/-- The keys listed with one kind of problem. -/
def keysOf (rejection : Rejection) (problem : Problem) : List Key :=
  (rejection.diagnostics.filter fun d => d.problem = problem).map (·.key)

/-- The report: the number of problems, then one line for each problem listed. -/
def render (rejection : Rejection) : String :=
  "dependency graph is invalid (" ++ toString rejection.total ++ " problem"
    ++ (if rejection.total = 1 then "" else "s") ++ ")"
    ++ String.join (rejection.diagnostics.map fun d => "\n  - " ++ d.render)
    ++ (if rejection.omitted = 0 then ""
      else "\n  ... and " ++ toString rejection.omitted ++ " more")

/-- A rejection for a list of diagnostics, of which at most `limit` are listed. -/
def ofDiagnostics (limit : Option Nat) (diagnostics : List Diagnostic) : Rejection :=
  match limit with
  | some limit => ⟨diagnostics.take limit, diagnostics.length - limit⟩
  | none => ⟨diagnostics, 0⟩

end Rejection

end Injection
