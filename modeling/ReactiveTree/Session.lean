import ReactiveTree.Resumption

/-!
A tree driven by its host: it is activated, its tasks fall due as the clock advances, it is stopped,
and the host may write variables in between. A call answers the report of the top node, and the
journal grows by what happened.
-/

namespace ReactiveTree

variable {H : Host}

structure Session (H : Host) (tree : Tree H) where
  live : Live H tree
  cx : Context H

namespace Session

variable {tree : Tree H}

def start (tree : Tree H) (scene : Scene H.Target) (sampler : H.Sampler) : Session H tree :=
  ⟨Live.initial tree, ⟨scene, {}, sampler, []⟩⟩

def status (session : Session H tree) : Status := session.live.status

def isRunning (session : Session H tree) : Bool := session.live.isRunning

def evaluate (session : Session H tree) : Session H tree × Report :=
  let turn := ReactiveTree.evaluate tree session.live session.cx
  (⟨turn.live, turn.cx⟩, turn.report)

/-- Resumes the top node without asking whether the wake is for its tree. -/
def resume (wake : Wake) (session : Session H tree) : Session H tree × Report :=
  let turn := ReactiveTree.resume wake tree session.live session.cx
  (⟨turn.live, turn.cx⟩, turn.report)

/-- Delivers a wake. One for a node outside the tree is dropped. -/
def wake (wake : Wake) (session : Session H tree) : Session H tree × Report :=
  if tree.covers wake.node then session.resume wake else (session, [])

def dispatch (deliver : Wake → Session H tree → Session H tree × Report) :
    List Wake → Session H tree → Session H tree × Report
  | [], session => (session, [])
  | due :: rest, session =>
    let first := deliver due session
    let last := dispatch deliver rest first.1
    (last.1, first.2 ++ last.2)

def advance (delta : Nat) (session : Session H tree) : List Wake × Session H tree :=
  let due := session.cx.agenda.advance delta
  (due.1, { session with cx := { session.cx with agenda := due.2 } })

def tick (delta : Nat) (session : Session H tree) : Session H tree × Report :=
  let due := session.advance delta
  dispatch wake due.1 due.2

def stop (session : Session H tree) : Session H tree :=
  let stopped := ReactiveTree.stop tree session.live session.cx
  ⟨stopped.live, stopped.cx⟩

def cancel (task : Nat) (session : Session H tree) : Session H tree :=
  { session with cx := session.cx.cancel (some task) }

def blackboard (session : Session H tree) : Blackboard := session.cx.scene.blackboard

def withBlackboard (session : Session H tree) (board : Blackboard) : Session H tree :=
  { session with cx := { session.cx with scene := { session.cx.scene with blackboard := board } } }

def target (session : Session H tree) : H.Target := session.cx.scene.target

def withTarget (session : Session H tree) (target : H.Target) : Session H tree :=
  { session with cx := { session.cx with scene := { session.cx.scene with target } } }

def write (name : String) (value : Value) (session : Session H tree) :
    Except BlackboardError (Session H tree) :=
  (session.blackboard.write name value).map session.withBlackboard

def changes (session : Session H tree) : List Change :=
  session.cx.events.filterMap Event.change?

def clearJournal (session : Session H tree) : Session H tree :=
  { session with cx := { session.cx with journal := [] } }

end Session

end ReactiveTree
