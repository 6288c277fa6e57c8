/-
  What the library reports while it works.

  An event says what happened; its line has a level, a message and named
  fields.  Computations that report events and nothing else run in `Logged`.
-/
import Injection.Declaration
import Injection.Fault
import Injection.Problem

namespace Injection

/-- How much an event matters. -/
inductive Level where
  | trace
  | debug
  | info
  | warn

def Level.name : Level → String
  | .trace => "TRACE"
  | .debug => "DEBUG"
  | .info => "INFO"
  | .warn => "WARN"

/-- Something that happened. -/
inductive Event where
  | analysisStarted (modules targets : Nat)
  | moduleAdded (name : String) (providers : Nat)
  | nonConcreteProvider (key : Key) (origin : Origin)
  | duplicateProvider (key : Key) (location previous : String)
  | injectorProvided (key : Key) (location : String)
  | graphBuilt (nodes edges problems : Nat)
  | graphValid (nodes : Nat)
  | problemFound (diagnostic : Diagnostic)
  | analysisFailed (problems : Nat)
  | analysisSucceeded (providers instructions : Nat)
  | parentShadowed (key : Key)
  | resolverInterceptorAdded (name : String)
  | providerInterceptorAdded (name : String)
  | injectorConfigured (providers : Nat) (child : Bool)
  | lookupFailed (key : Key) (fault : Fault)
  | singletonMade

namespace Event

/-- The level of an event, its message and its fields. -/
def parts : Event → Level × String × List (String × String)
  | .analysisStarted modules targets =>
    (.debug, "Processing dependency declarations",
      [("modules", toString modules), ("targets", toString targets)])
  | .moduleAdded name providers =>
    (.debug, "Adding module to dependency graph",
      [("module", name), ("providers", toString providers)])
  | .nonConcreteProvider key origin =>
    (.warn, "Provider for a non-concrete type", [("key", key.render), ("location", origin.render)])
  | .duplicateProvider key location previous =>
    (.warn, "Duplicate provider",
      [("key", key.render), ("location", location), ("previous", previous)])
  | .injectorProvided key location =>
    (.warn, "Provider for the injector itself", [("key", key.render), ("location", location)])
  | .graphBuilt nodes edges problems =>
    (.debug, "Built dependency graph",
      [("nodes", toString nodes), ("edges", toString edges), ("problems", toString problems)])
  | .graphValid nodes => (.debug, "Dependency graph is valid", [("nodes", toString nodes)])
  | .problemFound diagnostic =>
    (.warn, "Dependency graph problem",
      [("key", diagnostic.key.render), ("kind", diagnostic.problem.render),
        ("location", diagnostic.location)])
  | .analysisFailed problems => (.warn, "Processing failed", [("problems", toString problems)])
  | .analysisSucceeded providers instructions =>
    (.info, "Processing succeeded",
      [("providers", toString providers), ("instructions", toString instructions)])
  | .parentShadowed key =>
    (.debug, "Registration shadows a parent provider", [("key", key.render)])
  | .resolverInterceptorAdded name =>
    (.debug, "Adding resolver interceptor", [("interceptor", name)])
  | .providerInterceptorAdded name =>
    (.debug, "Adding provider interceptor", [("interceptor", name)])
  | .injectorConfigured providers child =>
    (.debug, "Injector configured",
      [("providers", toString providers), ("child", if child then "true" else "false")])
  | .lookupFailed key fault =>
    (.warn, "Provider interceptor failed during lookup",
      [("key", key.render), ("error", fault.message)])
  | .singletonMade => (.trace, "Constructed singleton instance", [])

/-- The line of an event: its level, its message, and each field as `name=value`. -/
def line (event : Event) : String :=
  let (level, message, fields) := event.parts
  level.name ++ " " ++ message
    ++ String.join (fields.map fun field => " " ++ field.1 ++ "=" ++ field.2)

end Event

/-- Computations that report events. -/
abbrev Logged := StateM (Array Event)

def Logged.emit (event : Event) : Logged Unit := modify (·.push event)

end Injection
