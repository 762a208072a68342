import ReactiveTree.Host
import ReactiveTree.NodeKind
import ReactiveTree.Status

/-!
Trees. A tree itself never changes; what changes while it runs is kept beside it, in a value of
`Live tree` that has the tree's shape, one state and the handles of a node for each node.

Each node covers the ids from its own up to its `limit`. A wake is handed down to the first child
that covers the id it is addressed to.
-/

namespace ReactiveTree

/-- Name of a node: its number in the tree and the key that observers know it by. -/
structure Label where
  id : Nat
  key : String
  deriving DecidableEq, Repr

inductive Relay where
  | root
  | function
  | inverse
  deriving DecidableEq, Repr

inductive Order where
  | selector
  | sequencer
  deriving DecidableEq, Repr

mutual

inductive Tree (H : Host) where
  | relay (role : Relay) (label : Label) (child : Tree H)
  | repeater (label : Label) (child : Tree H)
  | loop (label : Label) (period : Nat) (child : Tree H)
  | gate (label : Label) (unit : H.Condition) (mode : PollMode) (period : Nat) (child : Tree H)
  | ordered (order : Order) (label : Label) (children : Forest H)
  | weighted (label : Label) (bounds : List Single) (children : Forest H)
  | parallel (label : Label) (main background : Tree H)
  | condition (label : Label) (unit : H.Condition)
  | action (label : Label) (unit : H.Action)

inductive Forest (H : Host) where
  | nil
  | cons (head : Tree H) (tail : Forest H)

end

variable {H : Host}

namespace Relay

def kind : Relay → NodeKind
  | .root => .root
  | .function => .functionNode
  | .inverse => .inverseDecorator

/-- A root hands on terminal states only. -/
def passes : Relay → Status → Bool
  | .root, status | .function, status => status.isTerminal
  | .inverse, status => status.isReported

def adjust : Relay → Status → Status
  | .root, status | .function, status => status
  | .inverse, status => status.invert

def hand (role : Relay) (report : Report) : Report :=
  (report.filter role.passes).map role.adjust

end Relay

def Order.kind : Order → NodeKind
  | .selector => .selector
  | .sequencer => .sequencer

namespace Tree

def label : Tree H → Label
  | relay _ label _ | repeater label _ | loop label _ _ | gate label _ _ _ _ | ordered _ label _
  | weighted label _ _ | parallel label _ _ | condition label _ | action label _ => label

def id (tree : Tree H) : Nat := tree.label.id

def kind : Tree H → NodeKind
  | relay role _ _ => role.kind
  | repeater _ _ => .repeater
  | loop _ _ _ => .loop
  | gate _ _ _ _ _ => .loopConditionNode
  | ordered order _ _ => order.kind
  | weighted _ _ _ => .weightedRandomSelector
  | parallel _ _ _ => .simpleParallel
  | condition _ _ => .conditionNode
  | action _ _ => .actionNode

end Tree

namespace Forest

def ofList : List (Tree H) → Forest H
  | [] => nil
  | tree :: trees => cons tree (ofList trees)

def toList : Forest H → List (Tree H)
  | nil => []
  | cons tree trees => tree :: toList trees

def length : Forest H → Nat
  | nil => 0
  | cons _ trees => trees.length + 1

@[simp] theorem toList_ofList (trees : List (Tree H)) : (ofList trees).toList = trees := by
  induction trees with
  | nil => rfl
  | cons tree trees ih => simp [ofList, toList, ih]

end Forest

mutual

/-- The end of the ids that a node covers: past its own id and those of its descendants. -/
def Tree.limit : Tree H → Nat
  | .relay _ label child | .repeater label child | .loop label _ child
  | .gate label _ _ _ child => max (label.id + 1) child.limit
  | .ordered _ label children | .weighted label _ children =>
    max (label.id + 1) children.limit
  | .parallel label main background => max (label.id + 1) (max main.limit background.limit)
  | .condition label _ | .action label _ => label.id + 1

def Forest.limit : Forest H → Nat
  | .nil => 0
  | .cons tree trees => max tree.limit trees.limit

end

mutual

def Tree.labels : Tree H → List Label
  | .relay _ label child | .repeater label child | .loop label _ child
  | .gate label _ _ _ child => label :: child.labels
  | .ordered _ label children | .weighted label _ children => label :: children.labels
  | .parallel label main background => label :: (main.labels ++ background.labels)
  | .condition label _ | .action label _ => [label]

def Forest.labels : Forest H → List Label
  | .nil => []
  | .cons tree trees => tree.labels ++ trees.labels

end

namespace Tree

def covers (tree : Tree H) (id : Nat) : Bool :=
  tree.id ≤ id && id < tree.limit

def span (tree : Tree H) : Nat := tree.limit - tree.id

end Tree

mutual

/-- State of the nodes of a tree between two calls. Handles name tasks of the agenda. -/
inductive Live (H : Host) : Tree H → Type where
  | relay {role : Relay} {label : Label} {child : Tree H} (status : Status)
      (kid : Live H child) : Live H (.relay role label child)
  | repeater {label : Label} {child : Tree H} (status : Status) (deferred : Option Nat)
      (kid : Live H child) : Live H (.repeater label child)
  | loop {label : Label} {period : Nat} {child : Tree H} (status : Status) (timer : Option Nat)
      (kid : Live H child) : Live H (.loop label period child)
  | gate {label : Label} {bound : H.Condition} {mode : PollMode} {period : Nat} {child : Tree H}
      (status : Status) (unit : H.Condition) (timer : Option Nat) (last : Status)
      (kid : Live H child) : Live H (.gate label bound mode period child)
  | ordered {order : Order} {label : Label} {children : Forest H} (status : Status)
      (kids : LiveForest H children) : Live H (.ordered order label children)
  | weighted {label : Label} {bounds : List Single} {children : Forest H} (status : Status)
      (selected : Option Nat) (kids : LiveForest H children) :
      Live H (.weighted label bounds children)
  | parallel {label : Label} {main background : Tree H} (status : Status) (first : Live H main)
      (second : Live H background) : Live H (.parallel label main background)
  | condition {label : Label} {bound : H.Condition} (status : Status) (unit : H.Condition) :
      Live H (.condition label bound)
  | action {label : Label} {bound : H.Action} (status : Status) (unit : H.Action)
      (task : Option Nat) : Live H (.action label bound)

inductive LiveForest (H : Host) : Forest H → Type where
  | nil : LiveForest H .nil
  | cons {tree : Tree H} {trees : Forest H} (head : Live H tree) (tail : LiveForest H trees) :
      LiveForest H (.cons tree trees)

end

namespace Live

def status {tree : Tree H} : Live H tree → Status
  | relay status _ | repeater status _ _ | loop status _ _ | gate status _ _ _ _
  | ordered status _ | weighted status _ _ | parallel status _ _ | condition status _
  | action status _ _ => status

def isRunning {tree : Tree H} (live : Live H tree) : Bool := live.status.isRunning

end Live

mutual

def Live.initial : (tree : Tree H) → Live H tree
  | .relay _ _ child => .relay .waiting (Live.initial child)
  | .repeater _ child => .repeater .waiting none (Live.initial child)
  | .loop _ _ child => .loop .waiting none (Live.initial child)
  | .gate _ unit _ _ child => .gate .waiting unit none .waiting (Live.initial child)
  | .ordered _ _ children => .ordered .waiting (LiveForest.initial children)
  | .weighted _ _ children => .weighted .waiting none (LiveForest.initial children)
  | .parallel _ main background => .parallel .waiting (Live.initial main) (Live.initial background)
  | .condition _ unit => .condition .waiting unit
  | .action _ unit => .action .waiting unit none

def LiveForest.initial : (trees : Forest H) → LiveForest H trees
  | .nil => .nil
  | .cons tree trees => .cons (Live.initial tree) (LiveForest.initial trees)

end

end ReactiveTree
