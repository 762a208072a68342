/-!
Tasks by which nodes ask to be woken: on every tick until cancelled, or once after a delay. Tasks
fall due in the order in which they were registered, and a task registered while a batch of wakes
is handed out falls due with the next advance at the earliest. Time is counted in nanoseconds.
-/

namespace ReactiveTree

inductive Trigger where
  | everyTick
  | deadline (time : Nat)
  deriving DecidableEq, Repr

structure Task where
  id : Nat
  node : Nat
  trigger : Trigger
  deriving DecidableEq, Repr

structure Wake where
  node : Nat
  task : Nat
  deriving DecidableEq, Repr

/-- Tasks stand in the order of their ids. `overrun` records that the clock or a deadline left the
range of times, after which the agenda means nothing. -/
structure Agenda where
  now : Nat := 0
  nextId : Nat := 0
  tasks : List Task := []
  overrun : Bool := false
  deriving DecidableEq, Repr

/-- The last time the clock can show: seconds fit in 64 bits. -/
def lastInstant : Nat :=
  Nat.pow 2 64 * 1000000000 - 1

namespace Trigger

def isDue (now : Nat) : Trigger → Bool
  | .everyTick => true
  | .deadline time => time ≤ now

/-- A timer that fired is gone; a task for every tick stays. -/
def stays (now : Nat) : Trigger → Bool
  | .everyTick => true
  | .deadline time => !(time ≤ now)

end Trigger

namespace Agenda

def pending (agenda : Agenda) : Nat := agenda.tasks.length

def isPending (agenda : Agenda) (task : Nat) : Bool :=
  agenda.tasks.any (·.id = task)

def hasTasksFor (agenda : Agenda) (node : Nat) : Bool :=
  agenda.tasks.any (·.node = node)

def register (agenda : Agenda) (node : Nat) (trigger : Trigger) : Nat × Agenda :=
  (agenda.nextId, { agenda with
    nextId := agenda.nextId + 1
    tasks := agenda.tasks ++ [⟨agenda.nextId, node, trigger⟩] })

def everyTick (agenda : Agenda) (node : Nat) : Nat × Agenda :=
  agenda.register node .everyTick

def after (agenda : Agenda) (node : Nat) (delay : Nat) : Nat × Agenda :=
  let time := agenda.now + delay
  let agenda := { agenda with overrun := agenda.overrun || lastInstant < time }
  agenda.register node (.deadline time)

/-- Unknown tasks and timers that fired are ignored. -/
def cancel (agenda : Agenda) (task : Nat) : Agenda :=
  { agenda with tasks := agenda.tasks.filter (·.id ≠ task) }

def advance (agenda : Agenda) (delta : Nat) : List Wake × Agenda :=
  let now := agenda.now + delta
  let due := agenda.tasks.filter (·.trigger.isDue now)
  (due.map fun task => ⟨task.node, task.id⟩, { agenda with
    now
    tasks := agenda.tasks.filter (·.trigger.stays now)
    overrun := agenda.overrun || lastInstant < now })

end Agenda

end ReactiveTree
