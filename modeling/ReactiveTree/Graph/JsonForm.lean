import ReactiveTree.Graph
import ReactiveTree.Json.Reader
import ReactiveTree.Status

/-!
Graphs and tunings as JSON, written and read. A record is an object, of which unknown fields are
skipped, or an array of its fields in order, of which the last ones may be missing. A choice is the
name of its case, or an object whose only field has that name.

Reading enters a bounded number of nested arrays and objects, the `room`. What is skipped is not
entered.
-/

namespace ReactiveTree

namespace Json

/-- The fields of a record, those that are missing as `none`. No field may be given twice. -/
def record? (names : List String) : Json → Option (List (Option Json))
  | object fields =>
    if fields.any (·.1.isNone) then none
    else names.mapM fun name =>
      match valuesAt fields name with
      | [] => some none
      | [value] => some (some value)
      | _ => none
  | array items =>
    if names.length < items.length then none
    else some (items.map some ++ List.replicate (names.length - items.length) none)
  | _ => none

def orElse? {α : Type} (fallback : α) (read : Json → Option α) : Option Json → Option α
  | none => some fallback
  | some json => read json

def case? {α : Type} (cases : List (String × α)) (room : Nat) : Json → Option α
  | string (some name) => cases.lookup name
  | object [(some name, null)] => if room = 0 then none else cases.lookup name
  | _ => none

def strings? : Nat → Json → Option (List String)
  | 0, _ => none
  | _ + 1, json => json.list? string?

end Json

def ValueKind.cases : List (String × ValueKind) :=
  [("Int", .int), ("Float", .float), ("Bool", .bool), ("Text", .text), ("Vector2", .vector2),
    ("Vector3", .vector3)]

def NodeKind.cases : List (String × NodeKind) :=
  NodeKind.all.map fun kind => (kind.name, kind)

def PollMode.cases : List (String × PollMode) :=
  PollMode.all.map (fun mode => (mode.name, mode)) ++ [("TrueToFalse", .trueToFalse)]

def Status.cases : List (String × Status) :=
  Status.all.map fun status => (status.name, status)

def Declaration.ofJson? : Nat → Json → Option Declaration
  | 0, _ => none
  | room + 1, json => do
    match ← json.record? ["name", "kind", "value"] with
    | [some name, kind, value] =>
      let name ← name.string?
      let kind ← Json.orElse? none (Json.optional? (Json.case? ValueKind.cases room)) kind
      let value ← Json.orElse? none (Json.optional? Json.string?) value
      some ⟨name, kind, value⟩
    | _ => none

def Argument.ofJson? : Nat → Json → Option Argument
  | 0, _ => none
  | _ + 1, .object [(some "Literal", .string (some text))] => some (.literal text)
  | _ + 1, .object [(some "Variable", .string (some name))] => some (.ref name)
  | _ + 1, _ => none

def Tuning.ofJson? : Nat → Json → Option Tuning
  | 0, _ => none
  | _ + 1, json => do
    let plain : Tuning := {}
    match ← json.record? ["loop_period_ms", "poll_period_ms", "seed"] with
    | [loop, poll, seed] =>
      let loopPeriodMs ← Json.orElse? plain.loopPeriodMs Json.natural? loop
      let pollPeriodMs ← Json.orElse? plain.pollPeriodMs Json.natural? poll
      let seed ← Json.orElse? plain.seed (Json.optional? Json.natural?) seed
      some { loopPeriodMs, pollPeriodMs, seed }
    | _ => none

def declarationsOfJson? : Nat → Json → Option (List Declaration)
  | 0, _ => none
  | room + 1, json => json.list? (Declaration.ofJson? room)

def argumentsOfJson? : Nat → Json → Option (List Argument)
  | 0, _ => none
  | room + 1, json => json.list? (Argument.ofJson? room)

def weightsOfJson? : Nat → Json → Option (List Single)
  | 0, _ => none
  | _ + 1, json => json.list? Json.single?

mutual

def Graph.ofJson? : Nat → Json → Option Graph
  | 0, _ => none
  | room + 1, json => do
    match ← json.record? ["variables", "nodes"] with
    | [declarations, nodes] =>
      let declarations ← Json.orElse? [] (declarationsOfJson? room) declarations
      let nodes ← Json.orElse? [] (nodesOfJson? room) nodes
      some { declarations, nodes }
    | _ => none

def nodesOfJson? : Nat → Json → Option (List Descriptor)
  | 0, _ => none
  | room + 1, json => json.list? (Descriptor.ofJson? room)

def Descriptor.ofJson? : Nat → Json → Option Descriptor
  | 0, _ => none
  | room + 1, json => do
    match ← json.record? ["kind", "id", "children", "params"] with
    | [some kind, some id, children, params] =>
      let kind ← kind.string?
      let id ← id.string?
      let children ← Json.orElse? [] (Json.strings? room) children
      let params ← Json.orElse? {} (Params.ofJson? room) params
      some { kind, id, children, params }
    | _ => none

def Params.ofJson? : Nat → Json → Option Params
  | 0, _ => none
  | room + 1, json => do
    match ← json.record?
      ["unit", "mode", "weights", "inputs", "outputs", "period_ms", "subtree"] with
    | [unit, mode, weights, inputs, outputs, periodMs, subtree] =>
      let unit ← Json.orElse? none (Json.optional? Json.string?) unit
      let mode ← Json.orElse? none (Json.optional? Json.string?) mode
      let weights ← Json.orElse? [] (weightsOfJson? room) weights
      let inputs ← Json.orElse? [] (argumentsOfJson? room) inputs
      let outputs ← Json.orElse? [] (Json.strings? room) outputs
      let periodMs ← Json.orElse? none (Json.optional? Json.natural?) periodMs
      let subtree ← Json.orElse? none (Json.optional? (Subtree.ofJson? room)) subtree
      some { unit, mode, weights, inputs, outputs, periodMs, subtree }
    | _ => none

def Subtree.ofJson? : Nat → Json → Option Subtree
  | 0, _ => none
  | room + 1, .object [(some "Inline", json)] => (Graph.ofJson? room json).map .inline
  | _ + 1, .object [(some "Named", .string (some name))] => some (.named name)
  | _ + 1, _ => none

end

namespace Json

def ofOption {α : Type} (write : α → Json) : Option α → Json
  | none => null
  | some a => write a

def ofList {α : Type} (write : α → Json) (items : List α) : Json :=
  array (items.map write)

def ofFields (fields : List (String × Json)) : Json :=
  object (fields.map fun field => (some field.1, field.2))

def ofNat (n : Nat) : Json := number (.natural n)

/-- There is no JSON number for an infinite single or for not-a-number. -/
def ofSingle (x : Single) : Json :=
  ofOption (fun x => number (.real x)) (Double.ofSingle? x)

end Json

/-- A kind of the host is written by its name, which cannot be read. -/
def ValueKind.toJson (kind : ValueKind) : Json :=
  match cases.find? (·.2 = kind) with
  | some case => .ofString case.1
  | none => .ofString kind.description

def Declaration.toJson (declared : Declaration) : Json :=
  .ofFields [("name", .ofString declared.name), ("kind", .ofOption ValueKind.toJson declared.kind),
    ("value", .ofOption .ofString declared.value)]

def Argument.toJson : Argument → Json
  | .literal text => .ofFields [("Literal", .ofString text)]
  | .ref name => .ofFields [("Variable", .ofString name)]

mutual

def Graph.toJson : Graph → Json
  | ⟨declarations, nodes⟩ =>
    .ofFields [("variables", .ofList Declaration.toJson declarations), ("nodes", .array (nodesToJson nodes))]
  termination_by structural graph => graph

def nodesToJson : List Descriptor → List Json
  | [] => []
  | node :: nodes => node.toJson :: nodesToJson nodes
  termination_by structural nodes => nodes

def Descriptor.toJson : Descriptor → Json
  | ⟨kind, id, children, params⟩ =>
    .ofFields [("kind", .ofString kind), ("id", .ofString id),
      ("children", .ofList .ofString children), ("params", params.toJson)]
  termination_by structural node => node

def Params.toJson : Params → Json
  | ⟨unit, mode, weights, inputs, outputs, periodMs, subtree⟩ =>
    .ofFields [("unit", .ofOption .ofString unit), ("mode", .ofOption .ofString mode),
      ("weights", .ofList .ofSingle weights), ("inputs", .ofList Argument.toJson inputs),
      ("outputs", .ofList .ofString outputs), ("period_ms", .ofOption .ofNat periodMs),
      ("subtree", subtreeToJson subtree)]
  termination_by structural params => params

def subtreeToJson : Option Subtree → Json
  | none => .null
  | some subtree => subtree.toJson
  termination_by structural subtree => subtree

def Subtree.toJson : Subtree → Json
  | .inline graph => .ofFields [("Inline", graph.toJson)]
  | .named name => .ofFields [("Named", .ofString name)]
  termination_by structural subtree => subtree

end

def Tuning.toJson (tuning : Tuning) : Json :=
  .ofFields [("loop_period_ms", .ofNat tuning.loopPeriodMs),
    ("poll_period_ms", .ofNat tuning.pollPeriodMs), ("seed", .ofOption .ofNat tuning.seed)]

/-- Levels of arrays and objects that a document may nest where it is read. -/
def documentRoom : Nat := 127

def Graph.parseJson? (text : String) : Option Graph :=
  (Json.parse? text).bind (Graph.ofJson? documentRoom)

end ReactiveTree
