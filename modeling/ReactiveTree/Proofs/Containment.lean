import ReactiveTree.Proofs.Correspondence
import ReactiveTree.Proofs.Renewal

/-!
What a fault of a leaf's unit amounts to. Beside a run the same run is made with units that never
fault: where a unit faults it does what it did, but then a condition answers no, an action that was
started or updated fails, and one that was stopped returns. The runs cannot be told apart but by
what the units answered and by what the leaves show to observers.
-/

namespace ReactiveTree

variable {H : Host}

/-- A condition in a run without faults of leaves. That of a gate is asked as it is. -/
inductive Lenient (Unit : Type) where
  | asked (unit : Unit)
  | excused (unit : Unit)

namespace Progress

def excuse (phase : Phase) : Progress → Progress
  | .faulted => if phase = .stop then .ongoing else .finished false
  | progress => progress

end Progress

/-- A leaf that faulted shows a warning, and a failure if it was excused. -/
def Status.excuse : Status → Status
  | .warning => .failure
  | status => status

@[reducible] def Host.lenient (H : Host) : Host where
  Target := H.Target
  Condition := Lenient H.Condition
  Action := H.Action
  Sampler := H.Sampler
  poll
    | .asked unit, scene =>
      let reply := H.poll unit scene
      ⟨reply.answer, .asked reply.unit, reply.scene⟩
    | .excused unit, scene =>
      let reply := H.poll unit scene
      ⟨some (reply.answer.getD false), .excused reply.unit, reply.scene⟩
  act phase unit scene :=
    let reply := H.act phase unit scene
    ⟨reply.answer.excuse phase, reply.unit, reply.scene⟩
  sample := H.sample

mutual

def Tree.lenient : Tree H → Tree H.lenient
  | .relay role label child => .relay role label child.lenient
  | .repeater label child => .repeater label child.lenient
  | .loop label period child => .loop label period child.lenient
  | .gate label unit mode period child => .gate label (.asked unit) mode period child.lenient
  | .ordered order label children => .ordered order label children.lenient
  | .weighted label bounds children => .weighted label bounds children.lenient
  | .parallel label main background => .parallel label main.lenient background.lenient
  | .condition label unit => .condition label (.excused unit)
  | .action label unit => .action label unit

def Forest.lenient : Forest H → Forest H.lenient
  | .nil => .nil
  | .cons tree trees => .cons tree.lenient trees.lenient

end

def Command.lenient : Command H → Command H.lenient
  | .evaluate => .evaluate
  | .tick delta => .tick delta
  | .stop => .stop
  | .change edit => .change edit

/-- The two events differ at most in that a unit of a leaf faulted, and so the leaf shows a warning,
where the other one did not and the leaf fails. -/
inductive Event.Excused : Event → Event → Prop
  | same (event : Event) : Excused event event
  | poll (node : Nat) : Excused (.called node (.poll none)) (.called node (.poll (some false)))
  | act (node : Nat) (phase : Phase) : Excused (.called node (.act phase .faulted))
      (.called node (.act phase (Progress.faulted.excuse phase)))
  | shown (id : Nat) (key : String) {kind : NodeKind}
      (leaf : kind = .conditionNode ∨ kind = .actionNode) :
      Excused (.changed ⟨id, key, kind, .warning⟩) (.changed ⟨id, key, kind, .failure⟩)

structure Context.Excused (cx : Context H) (cx' : Context H.lenient) : Prop where
  scene : cx'.scene = cx.scene
  agenda : cx'.agenda = cx.agenda
  sampler : cx'.sampler = cx.sampler
  journal : List.Forall₂ Event.Excused cx.journal cx'.journal

/-- A run beside the same run without faults of leaves. -/
def Bridge.excusing (H : Host) : Bridge H H.lenient where
  named _ := True
  contexts := Context.Excused
  gates unit unit' := unit' = .asked unit
  conditions unit unit' := unit' = .excused unit
  actions unit unit' := unit' = unit
  faces status status' := status' = status.excuse

section Steps

variable {cx : Context H} {cx' : Context H.lenient}

namespace Context.Excused

theorem record (excused : Excused cx cx') {event event' : Event} (alike : event.Excused event') :
    Excused (cx.record event) (cx'.record event') :=
  ⟨excused.scene, excused.agenda, excused.sampler, .cons alike excused.journal⟩

theorem announce (excused : Excused cx cx') (label : Label) (kind : NodeKind) (status : Status) :
    Excused (cx.announce label kind status) (cx'.announce label kind status) :=
  excused.record (.same _)

theorem show_leaf (excused : Excused cx cx') (label : Label) {kind : NodeKind}
    (leaf : kind = .conditionNode ∨ kind = .actionNode) (status : Status) :
    Excused (cx.announce label kind status) (cx'.announce label kind status.excuse) := by
  cases status with
  | warning => exact excused.record (.shown label.id label.key leaf)
  | _ => exact excused.announce label kind _

theorem setScene (excused : Excused cx cx') (scene : Scene H.Target) :
    Excused { cx with scene } { cx' with scene } :=
  ⟨rfl, excused.agenda, excused.sampler, excused.journal⟩

theorem setAgenda (excused : Excused cx cx') (agenda : Agenda) :
    Excused { cx with agenda } { cx' with agenda } :=
  ⟨excused.scene, rfl, excused.sampler, excused.journal⟩

theorem cancel (excused : Excused cx cx') (task : Option Nat) :
    Excused (cx.cancel task) (cx'.cancel task) := by
  cases task with
  | none => exact excused
  | some task =>
    unfold Context.cancel
    dsimp only
    rw [excused.agenda]
    exact excused.setAgenda _

end Context.Excused

variable (label : Label)

theorem act_excused (excused : cx.Excused cx') (phase : Phase) (unit : H.Action) :
    (cx'.act label phase unit).answer = (cx.act label phase unit).answer.excuse phase ∧
      (cx'.act label phase unit).unit = (cx.act label phase unit).unit ∧
      (cx.act label phase unit).cx.Excused (cx'.act label phase unit).cx := by
  unfold Context.act
  dsimp only
  rw [excused.scene]
  refine ⟨rfl, rfl, (excused.record ?_).setScene _⟩
  cases (H.act phase unit cx.scene).answer with
  | ongoing | finished => exact .same _
  | faulted => exact .act label.id phase

theorem ask_excused (excused : cx.Excused cx') (unit : H.Condition) :
    let polled := cx.poll label unit
    let polled' := cx'.poll label (Lenient.excused unit)
    polled'.answer = some (polled.answer.getD false) ∧ polled'.unit = .excused polled.unit ∧
      polled.cx.Excused polled'.cx := by
  unfold Context.poll
  dsimp only
  rw [excused.scene]
  refine ⟨rfl, rfl, (excused.record ?_).setScene _⟩
  cases (H.poll unit cx.scene).answer with
  | none => exact .poll label.id
  | some verdict => exact .same _

theorem poll_excused (excused : cx.Excused cx') (unit : H.Condition) :
    let polled := cx.poll label unit
    let polled' := cx'.poll label (Lenient.asked unit)
    polled.answer = polled'.answer ∧ polled'.unit = .asked polled.unit ∧
      polled.cx.Excused polled'.cx := by
  unfold Context.poll
  dsimp only
  rw [excused.scene]
  exact ⟨rfl, rfl, (excused.record (.same _)).setScene _⟩

theorem runCondition_excused (excused : cx.Excused cx') (unit : H.Condition) :
    let ran := runCondition label unit cx
    let ran' := runCondition label (Lenient.excused unit) cx'
    ran'.answer.1 = ran.answer.1.excuse ∧ ran.answer.2 = ran'.answer.2 ∧
      ran'.unit = .excused ran.unit ∧ ran.cx.Excused ran'.cx := by
  obtain ⟨answer', unit', polled⟩ :=
    ask_excused label (excused.announce label .conditionNode .running) unit
  have shown := polled.show_leaf label (.inl rfl)
  unfold runCondition
  dsimp only
  rw [answer', unit']
  match ((cx.announce label .conditionNode .running).poll label unit).answer with
  | none => exact ⟨rfl, rfl, rfl, shown .warning⟩
  | some true => exact ⟨rfl, rfl, rfl, shown .success⟩
  | some false => exact ⟨rfl, rfl, rfl, shown .failure⟩

theorem stepAction_excused (excused : cx.Excused cx') {phase : Phase} (goes : phase ≠ .stop)
    (status : Status) (unit : H.Action) (task : Option Nat) :
    (stepAction label phase status unit task cx).Matches (.excusing H)
      (stepAction label phase status.excuse unit task cx') := by
  obtain ⟨answer', unit', called⟩ := act_excused label excused phase unit
  have shown := (called.cancel task).show_leaf label (.inr rfl)
  unfold stepAction
  dsimp only
  rw [answer', unit']
  match (cx.act label phase unit).answer with
  | .ongoing => exact ⟨rfl, rfl, rfl, called, rfl⟩
  | .finished true => exact ⟨rfl, rfl, rfl, shown .success, rfl⟩
  | .finished false => exact ⟨rfl, rfl, rfl, shown .failure, rfl⟩
  | .faulted =>
    -- a call that starts or updates the unit fails where it faulted
    have excuse : Progress.faulted.excuse phase = .finished false := if_neg goes
    rw [excuse]
    exact ⟨rfl, rfl, rfl, shown .warning, rfl⟩

end Steps

theorem excusing_sound (H : Host) : (Bridge.excusing H).Sound where
  running := by rintro status _ rfl; cases status <;> rfl
  waiting := by rintro status _ rfl; cases status <;> decide
  idle := rfl
  active := rfl
  announce _ excused kind status := excused.announce _ kind status
  everyTick := by
    rintro label cx cx' _ excused
    unfold Context.everyTick
    rw [excused.agenda]
    exact ⟨rfl, excused.setAgenda _⟩
  after := by
    rintro label cx cx' _ excused delay
    unfold Context.after
    rw [excused.agenda]
    exact ⟨rfl, excused.setAgenda _⟩
  cancel excused task := excused.cancel task
  draw := by
    rintro cx cx' excused
    unfold Context.draw
    rw [excused.sampler]
    exact ⟨rfl, excused.scene, excused.agenda, rfl, excused.journal⟩
  poll := by
    rintro label unit _ cx cx' _ rfl excused
    exact poll_excused label excused unit
  ask := by
    rintro label unit _ cx cx' _ rfl excused
    exact runCondition_excused label excused unit
  step := by
    rintro label phase status _ _ unit cx cx' _ goes rfl rfl excused task
    exact stepAction_excused label excused goes status unit task
  halt := by
    rintro label _ unit cx cx' _ rfl excused
    exact (act_excused label excused .stop unit).2

mutual

theorem initial_excused : (tree : Tree H) →
    (Live.initial tree).Matches (.excusing H) (Live.initial tree.lenient)
  | .relay role _ child => .relay role .waiting trivial (initial_excused child)
  | .repeater _ child => .repeater .waiting none trivial (initial_excused child)
  | .loop _ period child => .loop period .waiting none trivial (initial_excused child)
  | .gate _ _ mode period child =>
    .gate mode period .waiting none .waiting trivial rfl (initial_excused child)
  | .ordered order _ children => .ordered order .waiting trivial (initial_excused_all children)
  | .weighted _ bounds children =>
    .weighted bounds .waiting none trivial (initial_excused_all children)
  | .parallel _ main background =>
    .parallel .waiting trivial (initial_excused main) (initial_excused background)
  | .condition _ _ => .condition trivial rfl rfl
  | .action _ _ => .action none trivial rfl rfl

theorem initial_excused_all : (trees : Forest H) →
    (LiveForest.initial trees).Matches (.excusing H) (LiveForest.initial trees.lenient)
  | .nil => .nil
  | .cons tree trees => .cons (initial_excused tree) (initial_excused_all trees)

end

namespace Session

variable {tree : Tree H} {session : Session H tree} {session' : Session H.lenient tree.lenient}

def obey (session : Session H tree) (command : Command H) : Session H tree × Report :=
  session.answer (.command command)

/-- The two sessions are the same, but for faults of leaves: node by node they hold the same tasks
and are in the same state, save that a leaf that faulted shows a warning in one and a failure in the
other. -/
structure Excused (session : Session H tree) (session' : Session H.lenient tree.lenient) :
    Prop where
  live : session.live.Matches (.excusing H) session'.live
  cx : session.cx.Excused session'.cx

theorem wake_excused (excused : session.Excused session') (due : Wake) :
    (session.wake due).1.Excused (session'.wake due).1 ∧
      (session.wake due).2 = (session'.wake due).2 := by
  unfold wake
  rw [matches_covers excused.live]
  split
  · have turn := resume_matches (excusing_sound H) due excused.live excused.cx
    exact ⟨⟨turn.live, turn.cx⟩, turn.report⟩
  · exact ⟨excused, rfl⟩

theorem obey_excused (excused : session.Excused session') (command : Command H) :
    (session.obey command).1.Excused (session'.obey command.lenient).1 ∧
      (session.obey command).2 = (session'.obey command.lenient).2 := by
  cases command with
  | evaluate =>
    have turn := evaluate_matches (excusing_sound H) excused.live excused.cx
    exact ⟨⟨turn.live, turn.cx⟩, turn.report⟩
  | tick delta =>
    have batch : (session'.advance delta).1 = (session.advance delta).1 := by
      unfold advance
      rw [excused.cx.agenda]
    have advanced : (session.advance delta).2.Excused (session'.advance delta).2 := by
      unfold advance
      rw [excused.cx.agenda]
      exact ⟨excused.live, excused.cx.setAgenda _⟩
    simp only [obey, answer, Command.lenient, tick, batch]
    exact dispatch_beside Excused (fun due _ _ excused => wake_excused excused due) _ advanced
  | stop =>
    have stopped := stop_matches (excusing_sound H) excused.live excused.cx
    exact ⟨⟨stopped.live, stopped.cx⟩, rfl⟩
  | change edit =>
    refine ⟨⟨excused.live, ?_⟩, rfl⟩
    simp only [obey, answer, Command.lenient, Session.edit, excused.cx.scene]
    exact excused.cx.setScene _

end Session

/-- A run whose leaves fault and the same run without these faults answer every call with the same
report. After each call the target, the blackboard, the agenda and the sampler are the same, the
same units were called in the same order, and every node is in the same state, but for the leaves
that faulted. -/
theorem faults_are_contained (tree : Tree H) (scene : Scene H.Target) (sampler : H.Sampler)
    (commands : List (Command H)) :
    List.Forall₂ (fun said said' => said.1 = said'.1 ∧ said.2.Excused said'.2)
      (Session.history Session.obey commands (Session.start tree scene sampler))
      (Session.history Session.obey (commands.map Command.lenient)
        (Session.start tree.lenient scene sampler)) :=
  Session.history_beside Session.Excused
    (fun command _ _ excused => Session.obey_excused excused command) commands
    ⟨initial_excused tree, rfl, rfl, rfl, .nil⟩

end ReactiveTree
