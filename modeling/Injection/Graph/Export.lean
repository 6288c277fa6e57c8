/-
  A dependency graph as texts, for other tools to read.
-/
import Injection.Graph.Basic

namespace Injection

structure Graph.NodeTexts where
  key : String
  origin : Option String
  scope : Option String
  dependencies : List String
  deferred : List String

/-- The texts of all nodes, in the order in which they were added. -/
def Graph.texts (graph : Graph) : List Graph.NodeTexts :=
  graph.nodes.toList.map fun (key, node) =>
    ⟨key.render, node.origin.map Origin.render, node.scope.map Scope.render,
      node.eager.map Key.render, node.deferred.map Key.render⟩

end Injection
