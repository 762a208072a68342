import ReactiveTree.Number.Decimal

/-!
Typed values that flow through slots and stand on a blackboard, and the literals that write them.
-/

namespace ReactiveTree

/-- `custom` names a kind of the host, whose values have no literal form. -/
inductive ValueKind where
  | int
  | float
  | bool
  | text
  | vector2
  | vector3
  | custom (name : String)
  deriving DecidableEq, Repr

structure Vector2 where
  x : Single
  y : Single
  deriving DecidableEq

structure Vector3 where
  x : Single
  y : Single
  z : Single
  deriving DecidableEq

namespace ValueKind

/-- Values of a kind. A value of the host is known by its handle alone. -/
abbrev Carrier : ValueKind → Type
  | .int => Int32
  | .float => Single
  | .bool => Bool
  | .text => String
  | .vector2 => Vector2
  | .vector3 => Vector3
  | .custom _ => Nat

instance decidableCarrier : (kind : ValueKind) → DecidableEq kind.Carrier
  | .int => inferInstanceAs (DecidableEq Int32)
  | .float => inferInstanceAs (DecidableEq Single)
  | .bool => inferInstanceAs (DecidableEq Bool)
  | .text => inferInstanceAs (DecidableEq String)
  | .vector2 => inferInstanceAs (DecidableEq Vector2)
  | .vector3 => inferInstanceAs (DecidableEq Vector3)
  | .custom _ => inferInstanceAs (DecidableEq Nat)

def description : ValueKind → String
  | .int => "int"
  | .float => "float"
  | .bool => "bool"
  | .text => "text"
  | .vector2 => "vector2"
  | .vector3 => "vector3"
  | .custom name => "custom `" ++ name ++ "`"

def storedName : ValueKind → String
  | .int => "i32"
  | .float => "f32"
  | .bool => "bool"
  | .text => "alloc::string::String"
  | .vector2 => "[f32; 2]"
  | .vector3 => "[f32; 3]"
  | .custom name => name

end ValueKind

structure Value where
  kind : ValueKind
  content : kind.Carrier
  deriving DecidableEq

namespace Value

def int (n : Int32) : Value := ⟨.int, n⟩
def float (x : Single) : Value := ⟨.float, x⟩
def bool (b : Bool) : Value := ⟨.bool, b⟩
def text (s : String) : Value := ⟨.text, s⟩
def vector2 (v : Vector2) : Value := ⟨.vector2, v⟩
def vector3 (v : Vector3) : Value := ⟨.vector3, v⟩
def custom (name : String) (handle : Nat) : Value := ⟨.custom name, handle⟩

def as? (value : Value) (kind : ValueKind) : Option kind.Carrier :=
  if same : value.kind = kind then some (same ▸ value.content) else none

end Value

namespace Literal

def int? (text : List Char) : Option Int32 :=
  ((Text.integer? (Text.trim text)).filter fun n => -2147483648 ≤ n && n ≤ 2147483647).map Int32.ofInt

def float? (text : List Char) : Option Single :=
  Single.parse? (Text.trim text)

/-- An empty text counts as false. -/
def bool? (text : List Char) : Option Bool :=
  let word := String.ofList (Text.trim text)
  if word ∈ ["1", "true", "True"] then some true
  else if word ∈ ["0", "false", "False", ""] then some false
  else none

/-- The numbers between commas, after opening brackets in front and closing brackets behind are
dropped. -/
def components? (text : List Char) : Option (List Single) :=
  let inner := Text.dropTrailing (· = ')') ((Text.trim text).dropWhile (· = '('))
  (Text.splitOn ',' inner).mapM float?

def vector2? (text : List Char) : Option Vector2 :=
  match components? text with
  | some [x, y] => some ⟨x, y⟩
  | _ => none

def vector3? (text : List Char) : Option Vector3 :=
  match components? text with
  | some [x, y, z] => some ⟨x, y, z⟩
  | _ => none

def parse? (kind : ValueKind) (text : String) : Option kind.Carrier :=
  match kind with
  | .int => int? text.toList
  | .float => float? text.toList
  | .bool => bool? text.toList
  | .text => some text
  | .vector2 => vector2? text.toList
  | .vector3 => vector3? text.toList
  | .custom _ => none

end Literal

end ReactiveTree
