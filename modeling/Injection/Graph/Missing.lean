/-
  Dependencies that nothing provides.

  A depth-first search from every key of the graph in turn follows the
  dependencies of a key in order, the deferred ones after the eager ones, and
  reports each key without a node once, with the first key found to need it.
  The keys still to be looked at are a list, so that long chains of
  dependencies cost no more than short ones.
-/
import Injection.Graph.Basic
import Injection.Graph.Walk
import Injection.Key.Set

namespace Injection

/-- A key that nothing provides, and the first key found to need it. -/
structure Graph.MissingKey where
  key : Key
  requiredBy : Key

namespace Graph.MissingSearch

/-- The state of the search: the keys seen, the missing ones in the order in which they were met,
    and the keys to look at next, each with the key that needs it. -/
structure State where
  visited : KeySet
  missing : Array MissingKey
  pending : List (Key × Key)

/-- Looks at the next pending key. -/
def step (graph : Graph) (state : State) : State :=
  let ⟨visited, missing, pending⟩ := state
  match pending with
  | [] => ⟨visited, missing, []⟩
  | (key, requiredBy) :: rest =>
    if visited.contains key then ⟨visited, missing, rest⟩
    else
      match graph.node? key with
      | none => ⟨visited.add key, missing.push ⟨key, requiredBy⟩, rest⟩
      | some node =>
        ⟨visited.add key, missing, node.dependencies.map (fun d => (d, key)) ++ rest⟩

def State.isDone (state : State) : Bool := state.pending.isEmpty

/-- Steps until nothing is pending, at most `steps` times. -/
def run (graph : Graph) : Nat → State → State := Walk.run State.isDone (step graph)

/-- The start of the search: every key of the graph is pending, and needs itself. -/
def start (graph : Graph) : State := ⟨.empty, #[], graph.keys.map fun key => (key, key)⟩

end Graph.MissingSearch

/-- The missing dependencies in the order in which the search meets them.  Each key of the graph
    and each dependency is pending at most once. -/
def Graph.missing (graph : Graph) : List Graph.MissingKey :=
  (MissingSearch.run graph (graph.size + graph.edgeCount)
    (MissingSearch.start graph)).missing.toList

end Injection
