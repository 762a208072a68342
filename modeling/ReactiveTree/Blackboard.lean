import ReactiveTree.Value

/-!
Named variables shared by the units of one tree. The kind of a variable is fixed by the write that
creates it; a read or a later write of another kind fails.
-/

namespace ReactiveTree

structure Blackboard where
  entries : List (String × Value) := []
  deriving DecidableEq

inductive BlackboardError where
  | notFound (name : String)
  | kindMismatch (name : String) (expected found : ValueKind)
  deriving DecidableEq

def BlackboardError.message : BlackboardError → String
  | .notFound name => "blackboard variable `" ++ name ++ "` not found"
  | .kindMismatch name expected found =>
    "blackboard variable `" ++ name ++ "` holds " ++ found.storedName ++ ", not " ++
      expected.storedName

namespace Blackboard

def find? (board : Blackboard) (name : String) : Option Value :=
  board.entries.lookup name

def contains (board : Blackboard) (name : String) : Bool :=
  (board.find? name).isSome

def read (board : Blackboard) (kind : ValueKind) (name : String) :
    Except BlackboardError kind.Carrier :=
  match board.find? name with
  | none => .error (.notFound name)
  | some value =>
    match value.as? kind with
    | some content => .ok content
    | none => .error (.kindMismatch name kind value.kind)

def put (board : Blackboard) (name : String) (value : Value) : Blackboard :=
  if board.contains name then
    ⟨board.entries.map fun entry => if entry.1 = name then (name, value) else entry⟩
  else
    ⟨board.entries ++ [(name, value)]⟩

def write (board : Blackboard) (name : String) (value : Value) :
    Except BlackboardError Blackboard :=
  match board.find? name with
  | none => .ok (board.put name value)
  | some old =>
    if old.kind = value.kind then .ok (board.put name value)
    else .error (.kindMismatch name value.kind old.kind)

def remove (board : Blackboard) (name : String) : Bool × Blackboard :=
  (board.contains name, ⟨board.entries.filter (·.1 ≠ name)⟩)

/-- Writes the value of a literal. There is no result if the literal does not parse or the
variable is of another kind. -/
def seed? (board : Blackboard) (name : String) (kind : ValueKind) (literal : String) :
    Option Blackboard :=
  match Literal.parse? kind literal with
  | none => none
  | some content => (board.write name ⟨kind, content⟩).toOption

def sorted (board : Blackboard) : List (String × Value) :=
  board.entries.mergeSort fun a b => a.1 ≤ b.1

end Blackboard

end ReactiveTree
