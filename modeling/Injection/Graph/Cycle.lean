/-
  Cycles of eager dependencies.

  A depth-first search colours every key it enters: gray while the key is on
  the path from the root of the search, black when all its dependencies have
  been explored.  A dependency on a gray key closes a cycle; the keys of the
  path from that key on take part in it.  Deferred dependencies close no cycle,
  and a key without a node has no dependencies here.

  The place of a key on the path is the number of keys before it.  The keys of
  the path that were not found in any cycle are kept in a list of their own, so
  every key is found once and no part of the path is walked twice.
-/
import Injection.Graph.Basic
import Injection.Graph.Walk
import Injection.Key.Set

namespace Injection

namespace Graph.CycleSearch

/-- A key on the current path, its place, and those of its dependencies that were not followed
    yet. -/
structure Frame where
  key : Key
  place : Nat
  pending : List Key

structure State where
  /-- The keys that were entered, gray or black, each with the place that it was given. -/
  entered : SlotTable Key Nat
  explored : KeySet
  /-- The path, from its last key back to the root. -/
  path : List Frame
  /-- The keys of the path that were not found in a cycle, with their places, in the order of the
      path. -/
  unclaimed : List (Nat × Key)
  /-- The keys found to take part in a cycle, in the order in which they were found. -/
  participants : Array Key
  /-- The keys of the graph from which the search did not start yet. -/
  roots : List Key

/-- The place of the next key on a path. -/
def nextPlace : List Frame → Nat
  | [] => 0
  | frame :: _ => frame.place + 1

/-- Splits the unclaimed keys into those from a place on and those before it. -/
def splitFrom (place : Nat) (unclaimed : List (Nat × Key)) :
    List (Nat × Key) × List (Nat × Key) :=
  unclaimed.span fun placed => place ≤ placed.1

/-- Follows the next dependency of the last key on the path, leaves that key if there is none, or
    starts from the next root if the path is empty. -/
def step (graph : Graph) (state : State) : State :=
  let ⟨entered, explored, path, unclaimed, participants, roots⟩ := state
  match path with
  | [] =>
    match roots with
    | [] => ⟨entered, explored, [], unclaimed, participants, []⟩
    | root :: roots =>
      if entered.contains root then ⟨entered, explored, [], unclaimed, participants, roots⟩
      else
        ⟨entered.insertNew root 0, explored, [⟨root, 0, graph.eager root⟩], [(0, root)],
          participants, roots⟩
  | ⟨key, place, []⟩ :: rest =>
    ⟨entered, explored.add key, rest, (splitFrom place unclaimed).2, participants, roots⟩
  | ⟨key, place, dependency :: pending⟩ :: rest =>
    let path := ⟨key, place, pending⟩ :: rest
    match entered.get? dependency with
    | none =>
      let next := nextPlace path
      ⟨entered.insertNew dependency next, explored,
        ⟨dependency, next, graph.eager dependency⟩ :: path, (next, dependency) :: unclaimed,
        participants, roots⟩
    | some entry =>
      if explored.contains dependency then
        ⟨entered, explored, path, unclaimed, participants, roots⟩
      else
        let (claimed, unclaimed) := splitFrom entry unclaimed
        ⟨entered, explored, path, unclaimed, participants ++ (claimed.map (·.2)).reverse, roots⟩

def State.isDone (state : State) : Bool := state.path.isEmpty && state.roots.isEmpty

/-- Steps until the search is over, at most `steps` times. -/
def run (graph : Graph) : Nat → State → State := Walk.run State.isDone (step graph)

def start (graph : Graph) : State := ⟨.empty, .empty, [], [], #[], graph.keys⟩

end Graph.CycleSearch

/-- The keys found to take part in a cycle, in the order in which they are found.  Each root is
    taken once, each dependency followed once, and each key entered by one of these left once. -/
def Graph.cycles (graph : Graph) : List Key :=
  (CycleSearch.run graph (2 * (graph.size + graph.edgeCount))
    (CycleSearch.start graph)).participants.toList

end Injection
