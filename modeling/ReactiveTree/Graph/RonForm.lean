import ReactiveTree.Graph.JsonForm
import ReactiveTree.Ron.Reader

/-!
Graphs as RON. A record is a list of named fields in parentheses, its own name in front if it gives
one, and unknown fields are skipped.

Reading goes down a bounded number of levels, the `room`. Each value takes one level below what holds
it; a list, a record, a map or a case takes one more for itself.
-/

namespace ReactiveTree

namespace Ron

/-- What is skipped has to be well formed and to fit into the room too. -/
def skippable : Nat → Ron → Bool
  | _ + 1, unit | _ + 1, absent | _ + 1, word _ | _ + 1, string _ | _ + 1, symbol => true
  | _ + 1, number token => Number.isNumber token
  | room + 1, present item => skippable room item
  | room + 2, list items => items.all (skippable room)
  | room + 2, tuple _ items => items.all (skippable room)
  | room + 2, map entries => entries.all fun entry => skippable room entry.1 && skippable room entry.2
  | room + 2, record _ fields => fields.all fun field => skippable room field.2
  | _, _ => false

def parts? : Ron → Option (Option String × List (String × Ron))
  | record name fields => some (name, fields)
  | tuple name [] => some (name, [])
  | unit => some (none, [])
  | _ => none

/-- A record may leave its name out unless the document asks for it. -/
def Extensions.accepts (extensions : Extensions) (name : String) : Option String → Bool
  | none => !extensions.namedRecords
  | some given => given = name

/-- The fields of a record in the order of `names`, those that are missing as `none`. No field may
be given twice. -/
def arrange? (names : List String) (room : Nat) (fields : List (String × Ron)) :
    Option (List (Option Ron)) :=
  if fields.all fun field => if names.contains field.1 then 0 < room else skippable room field.2 then
    names.mapM fun name =>
      match fields.filter (·.1 = name) with
      | [] => some none
      | [field] => some (some field.2)
      | _ => none
  else none

def record? (extensions : Extensions) (name : String) (names : List String) (room : Nat)
    (ron : Ron) : Option (List (Option Ron)) := do
  let (given, fields) ← ron.parts?
  if extensions.accepts name given then arrange? names room fields else none

def orElse? {α : Type} (fallback : α) (read : Ron → Option α) : Option Ron → Option α
  | none => some fallback
  | some ron => read ron

def optional? {α : Type} (extensions : Extensions) (room : Nat) (read : Ron → Option α) :
    Ron → Option (Option α)
  | absent => some none
  | present ron => if 2 ≤ room then (read ron).map some else none
  | ron => if extensions.implicitSome ∧ 2 ≤ room then (read ron).map some else none

def case? {α : Type} (cases : List (String × α)) (room : Nat) : Ron → Option α
  | word name => if 4 ≤ room then cases.lookup name else none
  | _ => none

def leaf? {α : Type} (read : Ron → Option α) (room : Nat) (ron : Ron) : Option α :=
  if 0 < room then read ron else none

def list? {α : Type} (read : Nat → Ron → Option α) : Nat → Ron → Option (List α)
  | room + 2, list items => items.mapM (read room)
  | _, _ => none

end Ron

def Declaration.ofRon? (extensions : Ron.Extensions) : Nat → Ron → Option Declaration
  | room + 2, ron => do
    match ← ron.record? extensions "VariableDecl" ["name", "kind", "value"] room with
    | [some name, kind, value] =>
      let name ← name.string?
      let kind ← Ron.orElse? none
        (Ron.optional? extensions room (Ron.case? ValueKind.cases room)) kind
      let value ← Ron.orElse? none (Ron.optional? extensions room Ron.string?) value
      some ⟨name, kind, value⟩
    | _ => none
  | _, _ => none

def Argument.ofRon? : Nat → Ron → Option Argument
  | _ + 3, .tuple (some "Literal") [.string text] => some (.literal text)
  | _ + 3, .tuple (some "Variable") [.string name] => some (.ref name)
  | _, _ => none

def Graph.ofRonFields? (extensions : Ron.Extensions) (nodes? : Ron → Option (List Descriptor))
    (room : Nat) (fields : List (String × Ron)) : Option Graph := do
  match ← Ron.arrange? ["variables", "nodes"] room fields with
  | [declarations, nodes] =>
    let declarations ← Ron.orElse? [] (Ron.list? (Declaration.ofRon? extensions) room) declarations
    let nodes ← Ron.orElse? [] nodes? nodes
    some { declarations, nodes }
  | _ => none

mutual

def Graph.ofRon? (extensions : Ron.Extensions) : Nat → Ron → Option Graph
  | room + 2, ron => do
    let (name, fields) ← ron.parts?
    if extensions.accepts "TreeGraph" name then
      Graph.ofRonFields? extensions (nodesOfRon? extensions room) room fields
    else none
  | _, _ => none

def nodesOfRon? (extensions : Ron.Extensions) : Nat → Ron → Option (List Descriptor)
  | room + 2, .list items => items.mapM (Descriptor.ofRon? extensions room)
  | _, _ => none

def Descriptor.ofRon? (extensions : Ron.Extensions) : Nat → Ron → Option Descriptor
  | room + 2, ron => do
    match ← ron.record? extensions "NodeDescriptor" ["kind", "id", "children", "params"] room with
    | [some kind, some id, children, params] =>
      let kind ← kind.string?
      let id ← id.string?
      let children ← Ron.orElse? [] (Ron.list? (Ron.leaf? Ron.string?) room) children
      let params ← Ron.orElse? {} (Params.ofRon? extensions room) params
      some { kind, id, children, params }
    | _ => none
  | _, _ => none

def Params.ofRon? (extensions : Ron.Extensions) : Nat → Ron → Option Params
  | room + 2, ron => do
    match ← ron.record? extensions "NodeParams"
      ["unit", "mode", "weights", "inputs", "outputs", "period_ms", "subtree"] room with
    | [unit, mode, weights, inputs, outputs, periodMs, subtree] =>
      let unit ← Ron.orElse? none (Ron.optional? extensions room Ron.string?) unit
      let mode ← Ron.orElse? none (Ron.optional? extensions room Ron.string?) mode
      let weights ← Ron.orElse? [] (Ron.list? (Ron.leaf? Ron.single?) room) weights
      let inputs ← Ron.orElse? [] (Ron.list? Argument.ofRon? room) inputs
      let outputs ← Ron.orElse? [] (Ron.list? (Ron.leaf? Ron.string?) room) outputs
      let periodMs ← Ron.orElse? none (Ron.optional? extensions room Ron.natural?) periodMs
      let subtree ← Ron.orElse? none
        (Ron.optional? extensions room (Subtree.ofRon? extensions room)) subtree
      some { unit, mode, weights, inputs, outputs, periodMs, subtree }
    | _ => none
  | _, _ => none

/-- Reads a subtree in an optional field. The field, the option and the case take a level each. With
unwrapped cases the fields of an inline graph stand in the parentheses of the case. -/
def Subtree.ofRon? (extensions : Ron.Extensions) : Nat → Ron → Option Subtree
  | _ + 4, .tuple (some "Named") [.string name] => some (.named name)
  | room + 5, ron =>
    if extensions.unwrapCases then
      match ron.parts? with
      | some (some "Inline", fields) =>
        (Graph.ofRonFields? extensions (nodesOfRon? extensions room) room fields).map .inline
      | _ => none
    else
      match ron with
      | .tuple (some "Inline") [ron] => (Graph.ofRon? extensions (room + 2) ron).map .inline
      | _ => none
  | _, _ => none

end

def Ron.documentRoom : Nat := 129

def Graph.parseRon? (text : String) : Option Graph := do
  let (extensions, ron) ← Ron.parse? text
  Graph.ofRon? extensions Ron.documentRoom ron

end ReactiveTree
