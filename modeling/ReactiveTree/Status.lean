/-!
States of a node, and the report a node hands to its parent: the states it reached during one call,
in order.
-/

namespace ReactiveTree

/-- `completed` and `warning` are diagnostic; no node decides anything by them. -/
inductive Status where
  | waiting
  | running
  | success
  | failure
  | completed
  | warning
  deriving DecidableEq, Repr, Inhabited

namespace Status

def all : List Status :=
  [.waiting, .running, .success, .failure, .completed, .warning]

def name : Status → String
  | .waiting => "Waiting"
  | .running => "Running"
  | .success => "True"
  | .failure => "False"
  | .completed => "Completed"
  | .warning => "Warning"

def ofName? (text : String) : Option Status :=
  all.find? fun status => status.name == text

def isTerminal (status : Status) : Bool :=
  status = .success || status = .failure

def isRunning (status : Status) : Bool :=
  status = .running

def isReported (status : Status) : Bool :=
  status.isTerminal || status.isRunning

def ofBool (verdict : Bool) : Status :=
  if verdict then .success else .failure

def invert : Status → Status
  | .success => .failure
  | .failure => .success
  | status => status

end Status

abbrev Report := List Status

def Report.terminal? (report : Report) : Option Status :=
  report.reverse.find? Status.isTerminal

end ReactiveTree
