/-
  The dependency graph: for every provided key, the keys its provider needs.

  A key with a node and no dependencies is provided and needs nothing; a key
  without a node is not provided at all.  Dependencies on `Provider<T>` and
  `Lazy<T>` are kept apart as deferred: they name `T`, which has to be provided
  but is not made together with its dependent.
-/
import Injection.Declaration
import Injection.Proofs.KeyIdentity
import Injection.Proofs.SlotTable

namespace Injection

/-- The provider of one key. -/
structure Graph.Node where
  /-- The keys of the instances needed to make this one. -/
  eager : List Key
  /-- The keys of the instances asked for later. -/
  deferred : List Key
  scope : Option Scope
  origin : Option Origin

/-- A dependency graph: its nodes by key, in the order in which they were added. -/
structure Graph where
  nodes : SlotTable Key Graph.Node
  wellFormed : nodes.WellFormed

namespace Graph

namespace Node

/-- The node of a provider of the graph's own. -/
def ofEdges (eager : List Key) : Node := ⟨eager, [], none, none⟩

/-- The node of a declared provider. -/
def ofProvider (provider : ProviderDecl) : Node :=
  ⟨provider.dependencies.filter fun key => key.deferredTarget?.isNone,
    provider.dependencies.filterMap Key.deferredTarget?, provider.scope, some provider.origin⟩

/-- All keys that a node needs, the eager ones first. -/
def dependencies (node : Node) : List Key := node.eager ++ node.deferred

def location (node : Node) : String :=
  match node.origin with
  | some origin => origin.render
  | none => "<graph>"

end Node

def empty : Graph := ⟨.empty, .empty⟩

/-- Adds a node unless its key is provided, and hands back key and node if it is. -/
def insert (graph : Graph) (key : Key) (node : Node) : Graph × Option (Key × Node) :=
  let ⟨nodes, h⟩ := graph
  let result := nodes.insert key node
  (⟨result.1, h.insert key node⟩, result.2)

/-- The graph with an entry for every pair, in order; a later pair with an equal key is left out. -/
def ofAdjacency (pairs : List (Key × List Key)) : Graph :=
  pairs.foldl (fun graph pair => (graph.insert pair.1 (.ofEdges pair.2)).1) empty

def node? (graph : Graph) (key : Key) : Option Node := graph.nodes.get? key

def contains (graph : Graph) (key : Key) : Bool := graph.nodes.contains key

/-- The provided keys, in the order in which they were added. -/
def keys (graph : Graph) : List Key := graph.nodes.keys

def size (graph : Graph) : Nat := graph.nodes.size

/-- The eager dependencies of a key; none for a key that is not provided. -/
def eager (graph : Graph) (key : Key) : List Key :=
  match graph.node? key with
  | some node => node.eager
  | none => []

def edgeCount (graph : Graph) : Nat :=
  (graph.nodes.values.flatMap Node.dependencies).length

/-- Where a key is provided; the text of the key if it is not. -/
def locationOf (graph : Graph) (key : Key) : String :=
  match graph.node? key with
  | some node => node.location
  | none => key.render

end Graph

end Injection
