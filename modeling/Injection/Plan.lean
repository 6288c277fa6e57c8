/-
  The order in which instances are made.

  A plan has one instruction for every key of a valid graph but the injector's,
  which the injector itself supplies.  It is the post-order of a depth-first
  walk over eager dependencies, from every key of the graph in turn, so every
  instruction comes after those of its eager dependencies.
-/
import Injection.Graph.Validation

namespace Injection

/-- How to make the instance of one key. -/
structure Instruction where
  key : Key
  /-- The instances to pass in, made earlier. -/
  dependencies : List Key
  /-- The keys to pass in as handles that are asked later. -/
  deferred : List Key
  scope : Option Scope
  origin : Option Origin

/-- Whether one instance is made and shared. -/
def Instruction.isSingleton (instruction : Instruction) : Bool :=
  instruction.scope = some .singleton

/-- The instruction for the key of a node. -/
def Instruction.ofNode (key : Key) (node : Graph.Node) : Instruction :=
  ⟨key, node.eager, node.deferred, node.scope, node.origin⟩

/-- Instructions in the order in which they are to be carried out. -/
structure Plan where
  instructions : List Instruction

namespace Plan

/-! ## The walk -/

/-- A key on the current path, its node, and the dependencies still to be placed before it. -/
structure Frame where
  key : Key
  node : Graph.Node
  pending : List Key

structure State where
  placed : KeySet
  path : List Frame
  instructions : Array Instruction
  roots : List Key

/-- Marks a key as placed, and puts it on the path if it still needs an instruction. -/
def enter (graph : Graph) (placed : KeySet) (path : List Frame) (key : Key) :
    KeySet × List Frame :=
  if key == .injector || placed.contains key then (placed, path)
  else
    match graph.node? key with
    | some node => (placed.add key, ⟨key, node, node.eager⟩ :: path)
    | none => (placed.add key, path)

/-- Enters the next dependency of the last key on the path, gives that key its instruction if
    there is none, or enters the next root if the path is empty. -/
def step (graph : Graph) (state : State) : State :=
  let ⟨placed, path, instructions, roots⟩ := state
  match path with
  | [] =>
    match roots with
    | [] => ⟨placed, [], instructions, []⟩
    | root :: roots =>
      let (placed, path) := enter graph placed [] root
      ⟨placed, path, instructions, roots⟩
  | ⟨key, node, []⟩ :: rest => ⟨placed, rest, instructions.push (.ofNode key node), roots⟩
  | ⟨key, node, dependency :: pending⟩ :: rest =>
    let (placed, path) := enter graph placed (⟨key, node, pending⟩ :: rest) dependency
    ⟨placed, path, instructions, roots⟩

def State.isDone (state : State) : Bool := state.path.isEmpty && state.roots.isEmpty

/-- Steps until the walk is over, at most `steps` times. -/
def run (graph : Graph) : Nat → State → State := Walk.run State.isDone (step graph)

def start (graph : Graph) : State := ⟨.empty, [], #[], graph.keys⟩

/-- The plan of a valid graph.  Each root is taken once, each dependency followed once, and each
    key that was entered left once. -/
def ofGraph (valid : ValidGraph) : Plan :=
  let graph := valid.graph
  ⟨(run graph (2 * (graph.size + graph.edgeCount)) (start graph)).instructions.toList⟩

/-! ## Reading a plan -/

def size (plan : Plan) : Nat := plan.instructions.length

/-- The place of the instruction for a key. -/
def position? (plan : Plan) (key : Key) : Option Nat :=
  plan.instructions.findIdx? fun instruction => instruction.key == key

/-- The instructions whose instances are made once and shared. -/
def singletons (plan : Plan) : List Instruction := plan.instructions.filter Instruction.isSingleton

end Plan

end Injection
