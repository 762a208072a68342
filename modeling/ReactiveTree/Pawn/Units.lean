import ReactiveTree.Call
import ReactiveTree.Pawn
import ReactiveTree.Registry

/-!
Units that drive a pawn. Any conditions and actions will do; the standard ones are waits and
comparisons on the frame clock, moves and turns at a constant rate, and a note of the position. A
move or turn ends with the first update at which its time is up.
-/

namespace ReactiveTree.Pawn

structure Units where
  Condition : Type
  Action : Type
  Sampler : Type
  poll : Condition → Scene Pawn → Reply (Option Bool) Condition Pawn
  act : Phase → Action → Scene Pawn → Reply Progress Action Pawn
  sample : Sampler → Single × Sampler

def Units.host (units : Units) : Host where
  Target := Pawn
  Condition := units.Condition
  Action := units.Action
  Sampler := units.Sampler
  poll := units.poll
  act := units.act
  sample := units.sample

inductive Condition where
  | isSmaller (a b : Input .float)
  | isTrue (flag : Input .bool)

inductive Action where
  | waitOneFrame (updates : Nat)
  | waitSecond (low high : Input .float) (wait elapsed : Single)
  | move (velocityX velocityY time : Input .float) (elapsed : Single)
  | turn (rate time : Input .float) (elapsed : Single)
  | storePosition (position : Output .vector3)

def Condition.poll : Condition → Call Condition Pawn Bool
  | .isSmaller a b => do
    let a : Single ← Call.read a
    let b : Single ← Call.read b
    pure (a.less b)
  | .isTrue flag => Call.read flag

namespace Action

/-- An activation forgets what the last one left behind. -/
def start : Action → Call Action Pawn (Option Bool)
  | waitOneFrame _ => do
    Call.become (waitOneFrame 0)
    pure none
  | waitSecond low high _ _ => do
    let least : Single ← Call.read low
    let bound : Single ← Call.read high
    let pawn ← Call.target
    match pawn.random? least bound with
    | some (wait, pawn) =>
      Call.setTarget pawn
      Call.become (waitSecond low high wait 0)
      pure none
    | none => Call.fault
  | move velocityX velocityY time _ => do
    Call.become (move velocityX velocityY time 0)
    pure none
  | turn rate time _ => do
    Call.become (turn rate time 0)
    pure none
  | storePosition _ => pure none

def update : Action → Call Action Pawn (Option Bool)
  | waitOneFrame updates => do
    Call.become (waitOneFrame (updates + 1))
    pure (if 0 < updates then some true else none)
  | waitSecond low high wait elapsed => do
    let pawn ← Call.target
    let elapsed := elapsed + pawn.deltaSeconds
    Call.become (waitSecond low high wait elapsed)
    pure (if wait.atMost elapsed then some true else none)
  | move velocityX velocityY time elapsed => do
    let limit : Single ← Call.read time
    if limit.atMost elapsed then pure (some true)
    else
      let x : Single ← Call.read velocityX
      let y : Single ← Call.read velocityY
      let pawn ← Call.target
      let delta := pawn.deltaSeconds
      Call.setTarget (pawn.translate ⟨x * delta, y * delta, 0⟩)
      Call.become (move velocityX velocityY time (elapsed + delta))
      pure none
  | turn rate time elapsed => do
    let limit : Single ← Call.read time
    if limit.atMost elapsed then pure (some true)
    else
      let degrees : Single ← Call.read rate
      let pawn ← Call.target
      let delta := pawn.deltaSeconds
      Call.setTarget (pawn.rotate (degrees * delta))
      Call.become (turn rate time (elapsed + delta))
      pure none
  | storePosition position => do
    let pawn ← Call.target
    Call.write position pawn.position
    pure (some true)

def perform (action : Action) : Phase → Call Action Pawn (Option Bool)
  | .start => action.start
  | .update => action.update
  | .stop => pure none

end Action

def standard : Units where
  Condition := Condition
  Action := Action
  Sampler := Sampler
  poll unit := unit.poll.answer unit
  act phase unit := (unit.perform phase).progress unit
  sample := Sampler.next

def host : Host := standard.host

def registry : Registry host where
  actions :=
    [("WaitOneFrame", { slots := [], create := fun _ => .ok (.waitOneFrame 0) }),
      ("WaitSecond", {
        slots := [.input "min" .float, .input "max" .float]
        create := fun bound => do
          let low ← bound.input "min" .float
          let high ← bound.input "max" .float
          .ok (.waitSecond low high 0 0) }),
      ("MoveAction", {
        slots := [.input "velocity_x" .float, .input "velocity_y" .float, .input "time" .float]
        create := fun bound => do
          let velocityX ← bound.input "velocity_x" .float
          let velocityY ← bound.input "velocity_y" .float
          let time ← bound.input "time" .float
          .ok (.move velocityX velocityY time 0) }),
      ("RotateAction", {
        slots := [.input "angular_velocity" .float, .input "time" .float]
        create := fun bound => do
          let rate ← bound.input "angular_velocity" .float
          let time ← bound.input "time" .float
          .ok (.turn rate time 0) }),
      ("StorePosition", {
        slots := [.output "position" .vector3]
        create := fun bound => do
          let position ← bound.output "position" .vector3
          .ok (.storePosition position) })]
  conditions :=
    [("IsSmaller", {
        slots := [.input "a" .float, .input "b" .float]
        create := fun bound => do
          let a ← bound.input "a" .float
          let b ← bound.input "b" .float
          .ok (.isSmaller a b) }),
      ("IsTrue", {
        slots := [.input "flag" .bool]
        create := fun bound => do
          let flag ← bound.input "flag" .bool
          .ok (.isTrue flag) })]

end ReactiveTree.Pawn
