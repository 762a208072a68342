import ReactiveTree.Build.Error
import ReactiveTree.Graph
import ReactiveTree.Registry
import ReactiveTree.Tree

/-!
Turning a graph into a tree. The graph is walked depth first from its root descriptor; nodes are
numbered as they are entered, and the body of a function node, a graph of its own, is walked after
the node itself. Every descriptor may be entered once in a body, and a graph of the library may not
be entered while it is open.
-/

namespace ReactiveTree.Build

variable {H : Host}

structure Sources (H : Host) where
  registry : Registry H
  library : Library := {}
  tuning : Tuning := {}

/-- What a build has made so far: the next number to give out, the variables, and the ids entered
in the body at hand. -/
structure Progress where
  next : Nat
  blackboard : Blackboard
  entered : List String

/-- A walk ends early by an error, or because it goes deeper than it was given room for. -/
inductive Halt where
  | error (error : BuildError)
  | tooDeep
  deriving DecidableEq

abbrev Walk (α : Type) := Except Halt α

def fail {α : Type} (error : BuildError) : Walk α := .error (.error error)

def require {α : Type} (error : BuildError) : Option α → Walk α
  | some part => .ok part
  | none => fail error

def check (error : BuildError) (holds : Bool) : Walk Unit :=
  if holds then .ok () else fail error

/-- Keys are ids behind the key of the function node whose body they are in. -/
def keyIn (scope id : String) : String :=
  if scope = "" then id else scope ++ "/" ++ id

def declare (board : Blackboard) (declared : Declaration) : Except BuildError Blackboard :=
  match declared.kind, declared.value with
  | some kind, some value =>
    match board.seed? declared.name kind value with
    | some board => .ok board
    | none => .error (.invalidValue declared.name value kind)
  | none, some _ => .error (.valueWithoutKind declared.name)
  | _, none => .ok board

def declareAll : Blackboard → List Declaration → Except BuildError Blackboard
  | board, [] => .ok board
  | board, declared :: rest =>
    match declare board declared with
    | .ok board => declareAll board rest
    | .error error => .error error

def bindUnit {Unit : Type} (key name : String) (unitType : UnitType Unit) (params : Params) :
    Except BuildError Unit :=
  let count (direction : Direction) (found : Nat) : Option BuildError :=
    if unitType.arity direction = found then none
    else some (.argumentCount key name direction (unitType.arity direction) found)
  match count .input params.inputs.length, count .output params.outputs.length with
  | some error, _ | none, some error => .error error
  | none, none =>
    match unitType.create (.ofArguments unitType.slots params.inputs params.outputs) with
    | .ok unit => .ok unit
    | .error error => .error (.binding key name error)

def conditionUnit (registry : Registry H) (key : String) (params : Params) :
    Except BuildError H.Condition :=
  match params.unit with
  | none => .error (.missingParameter key "unit")
  | some name =>
    match registry.condition? name with
    | none => .error (.unknownUnit key .condition name)
    | some unitType => bindUnit key name unitType params

def actionUnit (registry : Registry H) (key : String) (params : Params) :
    Except BuildError H.Action :=
  match params.unit with
  | none => .error (.missingParameter key "unit")
  | some name =>
    match registry.action? name with
    | none => .error (.unknownUnit key .action name)
    | some unitType => bindUnit key name unitType params

def pollMode (key : String) (params : Params) : Except BuildError PollMode :=
  match params.mode with
  | none => .error (.missingParameter key "mode")
  | some text =>
    match PollMode.parse? text with
    | none => .error (.invalidMode key text)
    | some mode => .ok mode

def period (params : Params) (defaultMs : Nat) : Nat :=
  milliseconds (params.periodMs.getD defaultMs)

/-- The node of a kind over its children. A function node has no children here and is made from its
body instead. -/
def shape (sources : Sources H) (kind : NodeKind) (label : Label) (params : Params)
    (children : List (Tree H)) : Except BuildError (Tree H) :=
  match kind, children with
  | .root, [child] => .ok (.relay .root label child)
  | .inverseDecorator, [child] => .ok (.relay .inverse label child)
  | .repeater, [child] => .ok (.repeater label child)
  | .loop, [child] => .ok (.loop label (period params sources.tuning.loopPeriodMs) child)
  | .loopConditionNode, [child] => do
    let mode ← pollMode label.key params
    let unit ← conditionUnit sources.registry label.key params
    .ok (.gate label unit mode (period params sources.tuning.pollPeriodMs) child)
  | .selector, children => .ok (.ordered .selector label (.ofList children))
  | .sequencer, children => .ok (.ordered .sequencer label (.ofList children))
  | .weightedRandomSelector, children =>
    match Weights.bounds params.weights children.length with
    | .ok bounds => .ok (.weighted label bounds (.ofList children))
    | .error error => .error (.invalidWeights label.key error)
  | .simpleParallel, [main, background] => .ok (.parallel label main background)
  | .conditionNode, [] => do
    let unit ← conditionUnit sources.registry label.key params
    .ok (.condition label unit)
  | .actionNode, [] => do
    let unit ← actionUnit sources.registry label.key params
    .ok (.action label unit)
  | kind, children => .error (.childCount label.key kind children.length)

def lift {α : Type} : Except BuildError α → Walk α
  | .ok part => .ok part
  | .error error => fail error

def buildEach (build : Descriptor → Progress → Walk (Tree H × Progress)) (graph : Graph)
    (parent : String) : List String → Progress → Walk (List (Tree H) × Progress)
  | [], progress => .ok ([], progress)
  | id :: ids, progress => do
    let node ← require (.missingNode parent id) (graph.find? id)
    let (tree, progress) ← build node progress
    let (trees, progress) ← buildEach build graph parent ids progress
    .ok (tree :: trees, progress)

/-- Builds what stands under the root descriptor of a graph. The ids entered in the surrounding
body play no part in it. -/
def buildBody (build : Descriptor → Progress → Walk (Tree H × Progress)) (graph : Graph)
    (scope : String) (progress : Progress) : Walk (Tree H × Progress) := do
  check .emptyGraph (!graph.isEmpty)
  let root ← require .missingRoot graph.root?
  let board ← lift (declareAll progress.blackboard graph.declarations)
  let key := keyIn scope root.id
  match root.children with
  | [id] =>
    let child ← require (.missingNode key id) (graph.find? id)
    let (tree, inner) ← build child ⟨progress.next, board, [root.id]⟩
    .ok (tree, { inner with entered := progress.entered })
  | children => fail (.childCount key .root children.length)

/-- Builds one node and what stands under it. `opened` names the graphs of the library that are
being expanded, and `depth` is the number of levels that may still be entered. -/
def buildNode (sources : Sources H) : Nat → Graph → List String → String → Descriptor → Progress →
    Walk (Tree H × Progress)
  | 0, _, _, _, _, _ => .error .tooDeep
  | depth + 1, graph, opened, scope, node, progress => do
    let key := keyIn scope node.id
    check (.sharedChild key) (!progress.entered.contains node.id)
    let kind ← require (.unknownNodeKind key node.kind) (NodeKind.parse? node.kind)
    check (.childCount key kind node.children.length) (kind.childCount.accepts node.children.length)
    let label : Label := ⟨progress.next, key⟩
    let entered : Progress :=
      { progress with next := progress.next + 1, entered := node.id :: progress.entered }
    let (children, progress) ←
      buildEach (buildNode sources depth graph opened scope) graph key node.children entered
    if kind = .functionNode then
      match node.params.subtree with
      | none => fail (.missingParameter key "subtree")
      | some (.inline body) =>
        let (tree, progress) ←
          buildBody (buildNode sources depth body opened key) body key progress
        .ok (.relay .function label tree, progress)
      | some (.named name) =>
        check (.recursiveSubtree name) (!opened.contains name)
        let body ← require (.unknownSubtree key name) (sources.library.get? name)
        let (tree, progress) ←
          buildBody (buildNode sources depth body (name :: opened) key) body key progress
        .ok (.relay .function label tree, progress)
    else
      let tree ← lift (shape sources kind label node.params children)
      .ok (tree, progress)

end ReactiveTree.Build
