import ReactiveTree.Agenda
import ReactiveTree.Tree

/-!
What the nodes of a tree work on together during a call, and the journal of what they do: the state
changes that observers are told of and the calls made to units, in one order.
-/

namespace ReactiveTree

structure Change where
  id : Nat
  key : String
  kind : NodeKind
  status : Status
  deriving DecidableEq, Repr

inductive UnitCall where
  | poll (answer : Option Bool)
  | act (phase : Phase) (answer : Progress)
  deriving DecidableEq, Repr

inductive Event where
  | changed (change : Change)
  | called (node : Nat) (call : UnitCall)
  deriving DecidableEq, Repr

def Event.change? : Event → Option Change
  | .changed change => some change
  | .called _ _ => none

/-- The journal has the newest event in front. -/
structure Context (H : Host) where
  scene : Scene H.Target
  agenda : Agenda
  sampler : H.Sampler
  journal : List Event := []

structure Stopped (H : Host) (σ : Type) where
  live : σ
  cx : Context H

/-- A part of a tree after a call, with what it reports to its parent. -/
structure Turn (H : Host) (σ : Type) where
  live : σ
  cx : Context H
  report : Report

structure Answered (H : Host) (Answer Unit : Type) where
  answer : Answer
  unit : Unit
  cx : Context H

variable {H : Host}

namespace Context

def record (cx : Context H) (event : Event) : Context H :=
  { cx with journal := event :: cx.journal }

def events (cx : Context H) : List Event := cx.journal.reverse

theorem events_record (cx : Context H) (event : Event) :
    (cx.record event).events = cx.events ++ [event] :=
  List.reverse_cons

def announce (cx : Context H) (label : Label) (kind : NodeKind) (status : Status) : Context H :=
  cx.record (.changed ⟨label.id, label.key, kind, status⟩)

def announceAll (cx : Context H) (label : Label) (kind : NodeKind) (report : Report) : Context H :=
  report.foldl (fun cx status => cx.announce label kind status) cx

/-- Tells observers that a node waits again, if it did not before. -/
def settle (cx : Context H) (label : Label) (kind : NodeKind) (status : Status) : Context H :=
  if status = .waiting then cx else cx.announce label kind .waiting

def poll (cx : Context H) (label : Label) (unit : H.Condition) :
    Answered H (Option Bool) H.Condition :=
  let reply := H.poll unit cx.scene
  ⟨reply.answer, reply.unit,
    { cx.record (.called label.id (.poll reply.answer)) with scene := reply.scene }⟩

def act (cx : Context H) (label : Label) (phase : Phase) (unit : H.Action) :
    Answered H Progress H.Action :=
  let reply := H.act phase unit cx.scene
  ⟨reply.answer, reply.unit,
    { cx.record (.called label.id (.act phase reply.answer)) with scene := reply.scene }⟩

def everyTick (cx : Context H) (label : Label) : Nat × Context H :=
  let registered := cx.agenda.everyTick label.id
  (registered.1, { cx with agenda := registered.2 })

def after (cx : Context H) (label : Label) (delay : Nat) : Nat × Context H :=
  let registered := cx.agenda.after label.id delay
  (registered.1, { cx with agenda := registered.2 })

def cancel (cx : Context H) : Option Nat → Context H
  | none => cx
  | some task => { cx with agenda := cx.agenda.cancel task }

def draw (cx : Context H) : Single × Context H :=
  let drawn := H.sample cx.sampler
  (drawn.1, { cx with sampler := drawn.2 })

section Fields

variable (cx : Context H) (label : Label)

@[simp] theorem record_agenda (event : Event) : (cx.record event).agenda = cx.agenda := rfl

@[simp] theorem record_scene (event : Event) : (cx.record event).scene = cx.scene := rfl

@[simp] theorem announce_agenda (kind : NodeKind) (status : Status) :
    (cx.announce label kind status).agenda = cx.agenda := rfl

@[simp] theorem announce_scene (kind : NodeKind) (status : Status) :
    (cx.announce label kind status).scene = cx.scene := rfl

@[simp] theorem announceAll_agenda (kind : NodeKind) (report : Report) :
    (cx.announceAll label kind report).agenda = cx.agenda := by
  induction report generalizing cx with
  | nil => rfl
  | cons status report ih => exact ih (cx.announce label kind status)

@[simp] theorem settle_agenda (kind : NodeKind) (status : Status) :
    (cx.settle label kind status).agenda = cx.agenda := by
  unfold settle
  split <;> rfl

@[simp] theorem poll_agenda (unit : H.Condition) : (cx.poll label unit).cx.agenda = cx.agenda := rfl

@[simp] theorem act_agenda (phase : Phase) (unit : H.Action) :
    (cx.act label phase unit).cx.agenda = cx.agenda := rfl

@[simp] theorem draw_agenda : cx.draw.2.agenda = cx.agenda := rfl

@[simp] theorem cancel_scene (task : Option Nat) : (cx.cancel task).scene = cx.scene := by
  cases task <;> rfl

end Fields

end Context

end ReactiveTree
