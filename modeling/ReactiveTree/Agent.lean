import ReactiveTree.Pawn.Units
import ReactiveTree.Session

/-!
A pawn driven by a tree. The outcome of an agent is taken from the first call in which the top node
reports a terminal state, and is the last one that it reports there.
-/

namespace ReactiveTree

structure Agent {units : Pawn.Units} (tree : Tree units.host) where
  session : Session units.host tree
  outcome : Option Status := none

namespace Agent

variable {units : Pawn.Units} {tree : Tree units.host}

def new (tree : Tree units.host) (pawn : Pawn) (blackboard : Blackboard)
    (sampler : units.Sampler) : Agent tree :=
  ⟨.start tree ⟨pawn, blackboard⟩ sampler, none⟩

def pawn (agent : Agent tree) : Pawn := agent.session.target

/-- Takes over what a call left; an outcome that is there stays. -/
def record (agent : Agent tree) (called : Session units.host tree × Report) : Agent tree × Report :=
  (⟨called.1, agent.outcome.or called.2.terminal?⟩, called.2)

def start (agent : Agent tree) : Agent tree × Report :=
  agent.record agent.session.evaluate

def frame (delta : Nat) (agent : Agent tree) : Agent tree × Report :=
  let session := agent.session.withTarget (agent.pawn.beginFrame delta)
  agent.record (session.tick delta)

def shutdown (agent : Agent tree) : Agent tree :=
  { agent with session := agent.session.stop }

def changes (agent : Agent tree) : List Change := agent.session.changes

def clearJournal (agent : Agent tree) : Agent tree :=
  { agent with session := agent.session.clearJournal }

def overrun (agent : Agent tree) : Bool := agent.session.cx.agenda.overrun

end Agent

end ReactiveTree
