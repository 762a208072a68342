import ReactiveTree.Binding
import ReactiveTree.NodeKind

/-!
Node graphs: a flat list of descriptors linked by id, with the blackboard variables that the graph
declares. Kind tags and modes stay text here, so that an unknown one is found when a tree is built,
where the node can be named. A function node carries a whole graph or names one of a library.
-/

namespace ReactiveTree

structure Declaration where
  name : String
  kind : Option ValueKind := none
  value : Option String := none
  deriving BEq, Repr

mutual

structure Graph where
  declarations : List Declaration := []
  nodes : List Descriptor := []

structure Descriptor where
  kind : String
  id : String
  children : List String := []
  params : Params

/-- Fields that a kind does not use are ignored. -/
structure Params where
  unit : Option String := none
  mode : Option String := none
  weights : List Single := []
  inputs : List Argument := []
  outputs : List String := []
  periodMs : Option Nat := none
  subtree : Option Subtree := none

inductive Subtree where
  | inline (graph : Graph)
  | named (name : String)

end

deriving instance BEq for Graph, Descriptor, Params, Subtree

namespace Graph

def root? (graph : Graph) : Option Descriptor :=
  graph.nodes.find? fun node => NodeKind.parse? node.kind = some .root

def find? (graph : Graph) (id : String) : Option Descriptor :=
  graph.nodes.find? fun node => node.id = id

def isEmpty (graph : Graph) : Bool := graph.nodes.isEmpty

def withVariable (graph : Graph) (declared : Declaration) : Graph :=
  { graph with declarations := graph.declarations ++ [declared] }

def withNode (graph : Graph) (node : Descriptor) : Graph :=
  { graph with nodes := graph.nodes ++ [node] }

def assembled (graph : Graph) : Graph :=
  graph.nodes.foldl withNode (graph.declarations.foldl withVariable {})

end Graph

structure Library where
  entries : List (String × Graph) := []

namespace Library

def get? (library : Library) (name : String) : Option Graph :=
  library.entries.lookup name

def insert (library : Library) (name : String) (graph : Graph) : Library :=
  if (library.get? name).isSome then
    ⟨library.entries.map fun entry => if entry.1 = name then (name, graph) else entry⟩
  else
    ⟨library.entries ++ [(name, graph)]⟩

def size (library : Library) : Nat := library.entries.length

def sorted (library : Library) : List (String × Graph) :=
  library.entries.mergeSort fun a b => a.1 ≤ b.1

end Library

/-- Periods in milliseconds and the seed of random selection. -/
structure Tuning where
  loopPeriodMs : Nat := 500
  pollPeriodMs : Nat := 250
  seed : Option Nat := none
  deriving DecidableEq, Repr

def milliseconds (n : Nat) : Nat := n * 1000000

end ReactiveTree
