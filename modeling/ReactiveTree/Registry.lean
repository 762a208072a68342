import ReactiveTree.Binding
import ReactiveTree.Host

/-!
The units a host offers to graphs: each unit type has a name, the slots it declares, and a way to
make a unit from bound arguments. Conditions and actions have names of their own.
-/

namespace ReactiveTree

inductive Role where
  | action
  | condition
  deriving DecidableEq, Repr

def Role.name : Role → String
  | .action => "action"
  | .condition => "condition"

structure UnitType (Unit : Type) where
  slots : List Slot
  create : Bindings → Except BindError Unit

def UnitType.arity {Unit : Type} (unitType : UnitType Unit) (direction : Direction) : Nat :=
  (slotsOf direction unitType.slots).length

structure Registry (H : Host) where
  actions : List (String × UnitType H.Action) := []
  conditions : List (String × UnitType H.Condition) := []

namespace Registry

variable {H : Host}

def enter {α : Type} (name : String) (entry : α) (table : List (String × α)) :
    List (String × α) :=
  (name, entry) :: table.filter (·.1 ≠ name)

def action (registry : Registry H) (name : String) (unitType : UnitType H.Action) : Registry H :=
  { registry with actions := enter name unitType registry.actions }

def condition (registry : Registry H) (name : String) (unitType : UnitType H.Condition) :
    Registry H :=
  { registry with conditions := enter name unitType registry.conditions }

def action? (registry : Registry H) (name : String) : Option (UnitType H.Action) :=
  registry.actions.lookup name

def condition? (registry : Registry H) (name : String) : Option (UnitType H.Condition) :=
  registry.conditions.lookup name

def names {α : Type} (table : List (String × α)) : List String :=
  (table.map (·.1)).mergeSort fun a b => a ≤ b

end Registry

end ReactiveTree
