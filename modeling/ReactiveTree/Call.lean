import ReactiveTree.Binding
import ReactiveTree.Host

/-!
The course of one call of a unit. It reads inputs, writes outputs, and changes the unit and the
scene. A fault ends the call where it happens, and what was done before stays done.
-/

namespace ReactiveTree

abbrev Call (Unit Target α : Type) := OptionT (StateM (Unit × Scene Target)) α

namespace Call

variable {Unit Target α : Type}

def fault : Call Unit Target α := failure

def scene : Call Unit Target (Scene Target) := do
  let state ← get
  pure state.2

def target : Call Unit Target Target := do
  let scene ← scene
  pure scene.target

def become (unit : Unit) : Call Unit Target PUnit :=
  modify fun state => (unit, state.2)

def setTarget (target : Target) : Call Unit Target PUnit :=
  modify fun state => (state.1, { state.2 with target })

def setBlackboard (blackboard : Blackboard) : Call Unit Target PUnit :=
  modify fun state => (state.1, { state.2 with blackboard })

def read {kind : ValueKind} (input : Input kind) : Call Unit Target kind.Carrier := do
  let scene ← scene
  match input.read scene.blackboard with
  | .ok content => pure content
  | .error _ => fault

def write {kind : ValueKind} (output : Output kind) (content : kind.Carrier) :
    Call Unit Target PUnit := do
  let scene ← scene
  match output.write scene.blackboard content with
  | .ok blackboard => setBlackboard blackboard
  | .error _ => fault

def answer (call : Call Unit Target Bool) (unit : Unit) (scene : Scene Target) :
    Reply (Option Bool) Unit Target :=
  let (verdict, unit, scene) := call.run (unit, scene)
  ⟨verdict, unit, scene⟩

def progress (call : Call Unit Target (Option Bool)) (unit : Unit) (scene : Scene Target) :
    Reply Progress Unit Target :=
  let (verdict, unit, scene) := call.run (unit, scene)
  let answer : Progress := match verdict with
    | none => .faulted
    | some none => .ongoing
    | some (some success) => .finished success
  ⟨answer, unit, scene⟩

end Call

end ReactiveTree
