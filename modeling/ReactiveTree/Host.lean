import ReactiveTree.Blackboard

/-!
What a tree asks of its host: units, which are the conditions and actions at its leaves, a source
of random samples, and the target that the units act on. A unit is a value that answers a call with
its next value; it sees the target and the blackboard, and never the tree.
-/

namespace ReactiveTree

structure Scene (Target : Type) where
  target : Target
  blackboard : Blackboard

inductive Phase where
  | start
  | update
  | stop
  deriving DecidableEq, Repr

/-- How a call of an action ends. A fault takes precedence over a verdict given before it. -/
inductive Progress where
  | ongoing
  | finished (success : Bool)
  | faulted
  deriving DecidableEq, Repr

structure Reply (Answer Unit Target : Type) where
  answer : Answer
  unit : Unit
  scene : Scene Target

structure Host where
  Target : Type
  Condition : Type
  Action : Type
  Sampler : Type
  /-- Polls a condition; there is no verdict when it faults. -/
  poll : Condition → Scene Target → Reply (Option Bool) Condition Target
  act : Phase → Action → Scene Target → Reply Progress Action Target
  /-- Draws a sample in `[0, 1)`. -/
  sample : Sampler → Single × Sampler

end ReactiveTree
