import ReactiveTree.Context

/-!
How a node reacts to what its children report. Each rule here takes the ways to activate and to
stop a child as functions, so it speaks of one node and of no tree.
-/

namespace ReactiveTree

variable {H : Host} {σ : Type}

/-- What an ordered node made of one child's report: the later siblings, what the node reports,
and whether it goes on to the next child. -/
structure Reaction (H : Host) (σ : Type) where
  later : σ
  cx : Context H
  report : Report
  advances : Bool

def Reaction.after (status : Status) (reaction : Reaction H σ) : Reaction H σ :=
  { reaction with report := status :: reaction.report }

/-- A selector stops the later siblings as soon as a child runs or succeeds and goes on when the
child fails; a sequencer goes on when the child succeeds and stops the later siblings when it
fails. What a child reports after its verdict is not heard. -/
def Order.react (order : Order) (label : Label) (halt : σ → Context H → Stopped H σ) :
    Report → σ → Context H → Reaction H σ
  | [], later, cx => ⟨later, cx, [], false⟩
  | status :: report, later, cx =>
    match order, status with
    | .selector, .success =>
      let halted := halt later cx
      ⟨halted.live, halted.cx.announce label .selector .success, [.success], false⟩
    | .selector, .running =>
      let halted := halt later cx
      (order.react label halt report halted.live
        (halted.cx.announce label .selector .running)).after .running
    | .selector, .failure => ⟨later, cx, [], true⟩
    | .sequencer, .success => ⟨later, cx.announce label .sequencer .running, [.running], true⟩
    | .sequencer, .running =>
      (order.react label halt report later (cx.announce label .sequencer .running)).after .running
    | .sequencer, .failure =>
      let halted := halt later cx
      ⟨halted.live, halted.cx.announce label .sequencer .failure, [.failure], false⟩
    -- diagnostic states are passed over
    | _, _ => order.react label halt report later cx

def Order.exhausted : Order → Status
  | .selector => .failure
  | .sequencer => .success

def Turn.after (status : Status) (turn : Turn H σ) : Turn H σ :=
  { turn with report := status :: turn.report }

/-- A parallel node repeats what its main child reports. The background child is activated, if it
is idle, whenever main runs, and stopped whenever main ends. -/
def accompany (label : Label) (activate : σ → Context H → Turn H σ)
    (halt : σ → Context H → Stopped H σ) : Report → σ → Context H → Turn H σ
  | [], background, cx => ⟨background, cx, []⟩
  | status :: report, background, cx =>
    if status.isTerminal then
      let halted := halt background cx
      (accompany label activate halt report halted.live
        (halted.cx.announce label .simpleParallel status)).after status
    else if status.isRunning then
      let active := activate background cx
      (accompany label activate halt report active.live
        (active.cx.announce label .simpleParallel status)).after status
    else accompany label activate halt report background cx

structure ActionTurn (H : Host) where
  status : Status
  unit : H.Action
  task : Option Nat
  cx : Context H
  report : Report

/-- One phase of an action. A verdict or a fault gives up the task; a fault shows as a warning and
is reported as a failure. -/
def stepAction (label : Label) (phase : Phase) (status : Status) (unit : H.Action)
    (task : Option Nat) (cx : Context H) : ActionTurn H :=
  let called := cx.act label phase unit
  match called.answer with
  | .ongoing => ⟨status, called.unit, task, called.cx, []⟩
  | .finished success =>
    let verdict := Status.ofBool success
    ⟨verdict, called.unit, none, (called.cx.cancel task).announce label .actionNode verdict,
      [verdict]⟩
  | .faulted =>
    ⟨.warning, called.unit, none, (called.cx.cancel task).announce label .actionNode .warning,
      [.failure]⟩

/-- An activation starts the unit and updates it at once. If neither ends it, it is updated on
every tick. -/
def startAction (label : Label) (unit : H.Action) (task : Option Nat) (cx : Context H) :
    ActionTurn H :=
  let cx := (cx.cancel task).announce label .actionNode .running
  let started := stepAction label .start .running unit none cx
  if started.status.isRunning then
    let updated := stepAction label .update .running started.unit none started.cx
    if updated.status.isRunning then
      let registered := updated.cx.everyTick label
      ⟨.running, updated.unit, some registered.1, registered.2, []⟩
    else updated
  else started

def runCondition (label : Label) (unit : H.Condition) (cx : Context H) :
    Answered H (Status × Report) H.Condition :=
  let polled := (cx.announce label .conditionNode .running).poll label unit
  match polled.answer with
  | some verdict =>
    let status := Status.ofBool verdict
    ⟨(status, [status]), polled.unit, polled.cx.announce label .conditionNode status⟩
  | none =>
    ⟨(.warning, [.failure]), polled.unit, polled.cx.announce label .conditionNode .warning⟩

@[simp] theorem runCondition_agenda (label : Label) (unit : H.Condition) (cx : Context H) :
    (runCondition label unit cx).cx.agenda = cx.agenda := by
  unfold runCondition
  dsimp only
  split <;> rfl

/-- A repeater after it activated its child: a child that ended at once is activated again on the
next tick. -/
structure RepeaterTurn (H : Host) (σ : Type) where
  deferred : Option Nat
  kid : σ
  cx : Context H

def repeatChild (label : Label) (activate : σ → Context H → Turn H σ) (deferred : Option Nat)
    (kid : σ) (cx : Context H) : RepeaterTurn H σ :=
  let turn := activate kid cx
  match turn.report.terminal? with
  | some _ =>
    let registered := turn.cx.everyTick label
    ⟨some registered.1, turn.live, registered.2⟩
  | none => ⟨deferred, turn.live, turn.cx⟩

/-- One cycle of a loop. What the child reports is not heard. -/
def cycleChild (label : Label) (period : Nat) (activate : σ → Context H → Turn H σ) (kid : σ)
    (cx : Context H) : RepeaterTurn H σ :=
  let turn := activate kid (cx.announce label .loop .running)
  let registered := turn.cx.after label period
  ⟨some registered.1, turn.live, registered.2⟩

/-- A gate between two calls, with what it reports. `last` is the last state it reported. -/
structure GateTurn (H : Host) (σ : Type) where
  status : Status
  unit : H.Condition
  timer : Option Nat
  last : Status
  kid : σ
  cx : Context H
  report : Report

def PollMode.haltsOn (mode : PollMode) (report : Report) : Bool :=
  mode = .trueToFalse && report.contains .failure

def PollMode.haltsHolding (mode : PollMode) : Bool :=
  mode = .whenTrue

def rearm (label : Label) (mode : PollMode) (period : Nat) (halts : Bool) (cx : Context H) :
    Option Nat × Context H :=
  if halts || mode = .once then (none, cx)
  else
    let registered := cx.after label period
    (some registered.1, registered.2)

/-- A poll of a gate's condition. The gate activates its child when the condition holds, unless the
last state it reported was a success, and stops the child when the condition fails, unless the last
state it reported was a failure. A fault stops the child and ends the polling. -/
def pollGate (label : Label) (mode : PollMode) (period : Nat)
    (activate : σ → Context H → Turn H σ) (halt : σ → Context H → Stopped H σ) (status : Status)
    (unit : H.Condition) (last : Status) (kid : σ) (cx : Context H) : GateTurn H σ :=
  let polled := cx.poll label unit
  let kind := NodeKind.loopConditionNode
  match polled.answer with
  | none =>
    let halted := halt kid polled.cx
    ⟨.warning, polled.unit, none, .failure, halted.live, halted.cx.announce label kind .warning,
      [.failure]⟩
  | some true =>
    if last = .success then
      let armed := rearm label mode period false polled.cx
      ⟨status, polled.unit, armed.1, last, kid, armed.2, []⟩
    else
      let turn := activate kid (polled.cx.announce label kind .running)
      let heard := turn.report.filter Status.isReported
      let halts := mode.haltsOn heard || mode.haltsHolding
      let armed := rearm label mode period halts (turn.cx.announceAll label kind heard)
      ⟨heard.getLastD .running, polled.unit, armed.1, heard.getLastD last, turn.live, armed.2,
        .running :: heard⟩
  | some false =>
    if last = .failure then
      let armed := rearm label mode period false polled.cx
      ⟨status, polled.unit, armed.1, last, kid, armed.2, []⟩
    else
      let halted := halt kid (polled.cx.announce label kind .failure)
      let armed := rearm label mode period (mode = .trueToFalse) halted.cx
      ⟨.failure, polled.unit, armed.1, .failure, halted.live, armed.2, [.failure]⟩

section Poll

variable {label : Label} {mode : PollMode} {period : Nat} {activate : σ → Context H → Turn H σ}
  {halt : σ → Context H → Stopped H σ} {status : Status} {unit : H.Condition} {last : Status}
  {kid : σ} {cx : Context H}

theorem pollGate_faulted (answer : (cx.poll label unit).answer = none) :
    pollGate label mode period activate halt status unit last kid cx =
      (let halted := halt kid (cx.poll label unit).cx
       ⟨.warning, (cx.poll label unit).unit, none, .failure, halted.live,
        halted.cx.announce label .loopConditionNode .warning, [.failure]⟩) := by
  simp only [pollGate, answer]

theorem pollGate_content (answer : (cx.poll label unit).answer = some true)
    (succeeded : last = .success) :
    pollGate label mode period activate halt status unit last kid cx =
      (let armed := rearm label mode period false (cx.poll label unit).cx
       ⟨status, (cx.poll label unit).unit, armed.1, last, kid, armed.2, []⟩) := by
  simp only [pollGate, answer, if_pos succeeded]

theorem pollGate_opens (answer : (cx.poll label unit).answer = some true)
    (open_ : last ≠ .success) :
    pollGate label mode period activate halt status unit last kid cx =
      (let turn := activate kid ((cx.poll label unit).cx.announce label .loopConditionNode .running)
       let heard := turn.report.filter Status.isReported
       let armed := rearm label mode period (mode.haltsOn heard || mode.haltsHolding)
         (turn.cx.announceAll label .loopConditionNode heard)
       ⟨heard.getLastD .running, (cx.poll label unit).unit, armed.1, heard.getLastD last,
        turn.live, armed.2, .running :: heard⟩) := by
  simp only [pollGate, answer, if_neg open_]

theorem pollGate_closed (answer : (cx.poll label unit).answer = some false)
    (failed : last = .failure) :
    pollGate label mode period activate halt status unit last kid cx =
      (let armed := rearm label mode period false (cx.poll label unit).cx
       ⟨status, (cx.poll label unit).unit, armed.1, last, kid, armed.2, []⟩) := by
  simp only [pollGate, answer, if_pos failed]

theorem pollGate_closes (answer : (cx.poll label unit).answer = some false)
    (open_ : last ≠ .failure) :
    pollGate label mode period activate halt status unit last kid cx =
      (let halted := halt kid ((cx.poll label unit).cx.announce label .loopConditionNode .failure)
       let armed := rearm label mode period (mode = .trueToFalse) halted.cx
       ⟨.failure, (cx.poll label unit).unit, armed.1, .failure, halted.live, armed.2,
        [.failure]⟩) := by
  simp only [pollGate, answer, if_neg open_]

end Poll

section Keeping

variable (keeps : σ → Agenda → Prop) {activate : σ → Context H → Turn H σ}
  {halt : σ → Context H → Stopped H σ}

theorem react_keeps
    (halts : ∀ later cx, keeps later cx.agenda → keeps (halt later cx).live (halt later cx).cx.agenda)
    (order : Order) (label : Label) (report : Report) (later : σ) (cx : Context H)
    (kept : keeps later cx.agenda) :
    keeps (order.react label halt report later cx).later
      (order.react label halt report later cx).cx.agenda := by
  induction report generalizing later cx with
  | nil => exact kept
  | cons status report ih =>
    cases order with
    | selector =>
      cases status with
      | success => exact halts _ _ kept
      | running => exact ih _ _ (halts _ _ kept)
      | failure => exact kept
      | _ => exact ih _ _ kept
    | sequencer =>
      cases status with
      | success => exact kept
      | failure => exact halts _ _ kept
      | _ => exact ih _ _ kept

theorem accompany_keeps
    (activates : ∀ kid cx, keeps kid cx.agenda →
      keeps (activate kid cx).live (activate kid cx).cx.agenda)
    (halts : ∀ kid cx, keeps kid cx.agenda → keeps (halt kid cx).live (halt kid cx).cx.agenda)
    (label : Label) (report : Report) (background : σ) (cx : Context H)
    (kept : keeps background cx.agenda) :
    keeps (accompany label activate halt report background cx).live
      (accompany label activate halt report background cx).cx.agenda := by
  induction report generalizing background cx with
  | nil => exact kept
  | cons status report ih =>
    cases status with
    | success | failure => exact ih _ _ (halts _ _ kept)
    | running => exact ih _ _ (activates _ _ kept)
    | _ => exact ih _ _ kept

end Keeping

section Kids

variable (good : σ → Prop) {activate : σ → Context H → Turn H σ}
  {halt : σ → Context H → Stopped H σ} (activates : ∀ kid cx, good kid → good (activate kid cx).live)

include activates

theorem repeatChild_kid (label : Label) (deferred : Option Nat) (kid : σ) (cx : Context H)
    (kept : good kid) : good (repeatChild label activate deferred kid cx).kid := by
  unfold repeatChild
  dsimp only
  split <;> exact activates _ _ kept

theorem pollGate_kid (halts : ∀ kid cx, good kid → good (halt kid cx).live) (label : Label)
    (mode : PollMode) (period : Nat) (status : Status) (unit : H.Condition) (last : Status)
    (kid : σ) (cx : Context H) (kept : good kid) :
    good (pollGate label mode period activate halt status unit last kid cx).kid := by
  unfold pollGate
  dsimp only
  split
  · exact halts _ _ kept
  · split
    · exact kept
    · exact activates _ _ kept
  · split
    · exact kept
    · exact halts _ _ kept

end Kids

end ReactiveTree
