import ReactiveTree.Text.Blank

/-!
Kinds of node and modes of a polled gate, with the spellings a graph may use for them. A name is
recognised in any case of its ASCII letters.
-/

namespace ReactiveTree

inductive NodeKind where
  | root
  | selector
  | weightedRandomSelector
  | sequencer
  | simpleParallel
  | repeater
  | loop
  | inverseDecorator
  | conditionNode
  | loopConditionNode
  | actionNode
  | functionNode
  deriving DecidableEq, Repr

namespace NodeKind

def all : List NodeKind :=
  [.root, .selector, .weightedRandomSelector, .sequencer, .simpleParallel, .repeater, .loop,
    .inverseDecorator, .conditionNode, .loopConditionNode, .actionNode, .functionNode]

def name : NodeKind → String
  | .root => "Root"
  | .selector => "Selector"
  | .weightedRandomSelector => "WeightedRandomSelector"
  | .sequencer => "Sequencer"
  | .simpleParallel => "SimpleParallel"
  | .repeater => "Repeater"
  | .loop => "Loop"
  | .inverseDecorator => "InverseDecorator"
  | .conditionNode => "ConditionNode"
  | .loopConditionNode => "LoopConditionNode"
  | .actionNode => "ActionNode"
  | .functionNode => "FunctionNode"

def otherNames : NodeKind → List String
  | .root => ["RootNode"]
  | .sequencer => ["Sequence"]
  | .loop => ["LoopNode"]
  | .inverseDecorator => ["InverseDecorater", "Inverter"]
  | .conditionNode => ["Condition"]
  | .actionNode => ["Action"]
  | .functionNode => ["Function"]
  | _ => []

def parse? (text : String) : Option NodeKind :=
  all.find? fun kind => (kind.name :: kind.otherNames).any (Text.sameButCase text)

end NodeKind

/-- When a gate stops polling its condition: after the first poll, once the condition held, once
the gate failed, or never. -/
inductive PollMode where
  | once
  | whenTrue
  | trueToFalse
  | both
  deriving DecidableEq, Repr

namespace PollMode

def all : List PollMode :=
  [.once, .whenTrue, .trueToFalse, .both]

def name : PollMode → String
  | .once => "Once"
  | .whenTrue => "True"
  | .trueToFalse => "True -> False"
  | .both => "Both"

def otherNames : PollMode → List String
  | .trueToFalse => ["TrueToFalse", "True->False"]
  | _ => []

def parse? (text : String) : Option PollMode :=
  all.find? fun mode => (mode.name :: mode.otherNames).any (Text.sameButCase text)

end PollMode

end ReactiveTree
