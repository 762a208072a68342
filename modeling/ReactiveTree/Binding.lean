import ReactiveTree.Blackboard

/-!
How the arguments of a node reach the slots of its unit: inputs pair with input slots and outputs
with output slots, each by position.
-/

namespace ReactiveTree

inductive Direction where
  | input
  | output
  deriving DecidableEq, Repr

def Direction.name : Direction → String
  | .input => "input"
  | .output => "output"

structure Slot where
  name : String
  kind : ValueKind
  direction : Direction
  deriving DecidableEq, Repr

def Slot.input (name : String) (kind : ValueKind) : Slot := ⟨name, kind, .input⟩
def Slot.output (name : String) (kind : ValueKind) : Slot := ⟨name, kind, .output⟩

/-- What a node hands to an input slot: a constant, or a variable read on every use. -/
inductive Argument where
  | literal (text : String)
  | ref (name : String)
  deriving DecidableEq, Repr

inductive Input (kind : ValueKind) where
  | constant (content : kind.Carrier)
  | ref (name : String)

structure Output (kind : ValueKind) where
  target : String

namespace Input

def read {kind : ValueKind} (input : Input kind) (board : Blackboard) :
    Except BlackboardError kind.Carrier :=
  match input with
  | .constant content => .ok content
  | .ref name => board.read kind name

def ref? {kind : ValueKind} : Input kind → Option String
  | .constant _ => none
  | .ref name => some name

end Input

def Output.write {kind : ValueKind} (output : Output kind) (board : Blackboard)
    (content : kind.Carrier) : Except BlackboardError Blackboard :=
  board.write output.target ⟨kind, content⟩

inductive BindError where
  | unknownSlot (slot : String) (direction : Direction)
  | kindMismatch (slot : String) (declared requested : ValueKind)
  | invalidLiteral (slot : String) (literal : String) (kind : ValueKind)
  deriving DecidableEq, Repr

def BindError.message : BindError → String
  | .unknownSlot slot direction => "no " ++ direction.name ++ " slot named `" ++ slot ++ "`"
  | .kindMismatch slot declared requested =>
    "slot `" ++ slot ++ "` is declared as " ++ declared.description ++ " but requested as " ++
      requested.description
  | .invalidLiteral slot literal kind =>
    "literal `" ++ literal ++ "` is not a valid " ++ kind.description ++ " for slot `" ++ slot ++
      "`"

def slotsOf (direction : Direction) (slots : List Slot) : List Slot :=
  slots.filter (·.direction = direction)

structure Bindings where
  inputs : List (Slot × Argument)
  outputs : List (Slot × String)

namespace Bindings

def ofArguments (slots : List Slot) (inputs : List Argument) (outputs : List String) : Bindings :=
  ⟨(slotsOf .input slots).zip inputs, (slotsOf .output slots).zip outputs⟩

/-- Resolves an input slot. The kind is compared before the literal is looked at. -/
def input (bindings : Bindings) (name : String) (kind : ValueKind) :
    Except BindError (Input kind) :=
  match bindings.inputs.find? (·.1.name = name) with
  | none => .error (.unknownSlot name .input)
  | some (slot, argument) =>
    if slot.kind = kind then
      match argument with
      | .ref target => .ok (.ref target)
      | .literal text =>
        match Literal.parse? kind text with
        | some content => .ok (.constant content)
        | none => .error (.invalidLiteral name text kind)
    else .error (.kindMismatch slot.name slot.kind kind)

def output (bindings : Bindings) (name : String) (kind : ValueKind) :
    Except BindError (Output kind) :=
  match bindings.outputs.find? (·.1.name = name) with
  | none => .error (.unknownSlot name .output)
  | some (slot, target) =>
    if slot.kind = kind then .ok ⟨target⟩
    else .error (.kindMismatch slot.name slot.kind kind)

end Bindings

end ReactiveTree
