import ReactiveTree.Agent

/-!
Running an agent frame by frame. Before every frame the run ends if the tree has an outcome, else if
the frame limit is reached, else if it was asked to shut down. Every frame has the same length, so a
run depends on nothing but its agent.
-/

namespace ReactiveTree

namespace Simulation

inductive StopReason where
  | finished (outcome : Status)
  | frameLimit
  | shutdown
  | clockOverrun
  deriving DecidableEq, Repr

structure Ended {units : Pawn.Units} (tree : Tree units.host) where
  reason : StopReason
  frames : Nat
  agent : Agent tree

variable {units : Pawn.Units} {tree : Tree units.host}

def frames (period : Nat) (interrupted : Bool) : Nat → Nat → Agent tree → Ended tree
  | left, count, agent =>
    if agent.overrun then ⟨.clockOverrun, count, agent⟩
    else match agent.outcome with
      | some outcome => ⟨.finished outcome, count, agent⟩
      | none =>
        match left with
        | 0 => ⟨.frameLimit, count, agent⟩
        | left + 1 =>
          if interrupted then ⟨.shutdown, count, agent⟩
          else frames period interrupted left (count + 1) (agent.frame period).1

def mostFrames : Nat := Nat.pow 2 64

/-- A whole run: the agent is started, driven frame by frame, and shut down. -/
def run (period : Nat) (limit : Option Nat) (interrupted : Bool) (agent : Agent tree) :
    Ended tree :=
  let ended := frames period interrupted (limit.getD mostFrames) 0 agent.start.1
  { ended with agent := ended.agent.shutdown }

end Simulation

end ReactiveTree
