import Mathlib.Logic.Basic
import ReactiveTree.Session

/-!
Two trees of one shape, run side by side. The trees may have different hosts, and their units, the
states of their leaves and the contexts they work in may differ, so long as no single step tells
them apart. What the steps do alike is said once, by a bridge between the two sides; then every call
does alike what it does, and both sides report the same.
-/

namespace ReactiveTree

variable {H H' : Host} {σ σ' : Type}

/-- What of one run corresponds to what of another one. Steps are taken by named nodes only. -/
structure Bridge (H H' : Host) where
  named : Label → Prop
  contexts : Context H → Context H' → Prop
  gates : H.Condition → H'.Condition → Prop
  conditions : H.Condition → H'.Condition → Prop
  actions : H.Action → H'.Action → Prop
  faces : Status → Status → Prop

structure ActionTurn.Matches (bridge : Bridge H H') (turn : ActionTurn H) (other : ActionTurn H') :
    Prop where
  status : bridge.faces turn.status other.status
  unit : bridge.actions turn.unit other.unit
  task : turn.task = other.task
  cx : bridge.contexts turn.cx other.cx
  report : turn.report = other.report

namespace Bridge

/-- No step leads apart what corresponds. -/
structure Sound (bridge : Bridge H H') : Prop where
  running : ∀ {status status'}, bridge.faces status status' → status.isRunning = status'.isRunning
  waiting : ∀ {status status'}, bridge.faces status status' →
    (status = .waiting ↔ status' = .waiting)
  idle : bridge.faces .waiting .waiting
  active : bridge.faces .running .running
  announce : ∀ {label cx cx'}, bridge.named label → bridge.contexts cx cx' → ∀ kind status,
    bridge.contexts (cx.announce label kind status) (cx'.announce label kind status)
  everyTick : ∀ {label cx cx'}, bridge.named label → bridge.contexts cx cx' →
    (cx.everyTick label).1 = (cx'.everyTick label).1 ∧
      bridge.contexts (cx.everyTick label).2 (cx'.everyTick label).2
  after : ∀ {label cx cx'}, bridge.named label → bridge.contexts cx cx' → ∀ delay,
    (cx.after label delay).1 = (cx'.after label delay).1 ∧
      bridge.contexts (cx.after label delay).2 (cx'.after label delay).2
  cancel : ∀ {cx cx'}, bridge.contexts cx cx' → ∀ task,
    bridge.contexts (cx.cancel task) (cx'.cancel task)
  draw : ∀ {cx cx'}, bridge.contexts cx cx' →
    cx.draw.1 = cx'.draw.1 ∧ bridge.contexts cx.draw.2 cx'.draw.2
  poll : ∀ {label unit unit' cx cx'}, bridge.named label → bridge.gates unit unit' →
    bridge.contexts cx cx' →
    (cx.poll label unit).answer = (cx'.poll label unit').answer ∧
      bridge.gates (cx.poll label unit).unit (cx'.poll label unit').unit ∧
      bridge.contexts (cx.poll label unit).cx (cx'.poll label unit').cx
  ask : ∀ {label unit unit' cx cx'}, bridge.named label → bridge.conditions unit unit' →
    bridge.contexts cx cx' →
    bridge.faces (runCondition label unit cx).answer.1 (runCondition label unit' cx').answer.1 ∧
      (runCondition label unit cx).answer.2 = (runCondition label unit' cx').answer.2 ∧
      bridge.conditions (runCondition label unit cx).unit (runCondition label unit' cx').unit ∧
      bridge.contexts (runCondition label unit cx).cx (runCondition label unit' cx').cx
  step : ∀ {label phase status status' unit unit' cx cx'}, bridge.named label → phase ≠ .stop →
    bridge.faces status status' → bridge.actions unit unit' → bridge.contexts cx cx' → ∀ task,
    (stepAction label phase status unit task cx).Matches bridge
      (stepAction label phase status' unit' task cx')
  halt : ∀ {label unit unit' cx cx'}, bridge.named label → bridge.actions unit unit' →
    bridge.contexts cx cx' →
    bridge.actions (cx.act label .stop unit).unit (cx'.act label .stop unit').unit ∧
      bridge.contexts (cx.act label .stop unit).cx (cx'.act label .stop unit').cx

end Bridge

structure Stopped.Matches (bridge : Bridge H H') (rel : σ → σ' → Prop) (stopped : Stopped H σ)
    (other : Stopped H' σ') : Prop where
  live : rel stopped.live other.live
  cx : bridge.contexts stopped.cx other.cx

structure Turn.Matches (bridge : Bridge H H') (rel : σ → σ' → Prop) (turn : Turn H σ)
    (other : Turn H' σ') : Prop where
  live : rel turn.live other.live
  cx : bridge.contexts turn.cx other.cx
  report : turn.report = other.report

structure Reaction.Matches (bridge : Bridge H H') (rel : σ → σ' → Prop) (reaction : Reaction H σ)
    (other : Reaction H' σ') : Prop where
  later : rel reaction.later other.later
  cx : bridge.contexts reaction.cx other.cx
  report : reaction.report = other.report
  advances : reaction.advances = other.advances

structure RepeaterTurn.Matches (bridge : Bridge H H') (rel : σ → σ' → Prop)
    (turn : RepeaterTurn H σ) (other : RepeaterTurn H' σ') : Prop where
  deferred : turn.deferred = other.deferred
  kid : rel turn.kid other.kid
  cx : bridge.contexts turn.cx other.cx

structure GateTurn.Matches (bridge : Bridge H H') (rel : σ → σ' → Prop) (turn : GateTurn H σ)
    (other : GateTurn H' σ') : Prop where
  status : turn.status = other.status
  unit : bridge.gates turn.unit other.unit
  timer : turn.timer = other.timer
  last : turn.last = other.last
  kid : rel turn.kid other.kid
  cx : bridge.contexts turn.cx other.cx
  report : turn.report = other.report

section Rules

variable {bridge : Bridge H H'} (sound : bridge.Sound) {label : Label}
  {cx : Context H} {cx' : Context H'}

include sound

theorem announceAll_matches (named : bridge.named label) (kind : NodeKind) (report : Report)
    (contexts : bridge.contexts cx cx') :
    bridge.contexts (cx.announceAll label kind report) (cx'.announceAll label kind report) := by
  induction report generalizing cx cx' with
  | nil => exact contexts
  | cons status report ih => exact ih (sound.announce named contexts kind status)

theorem settle_matches (named : bridge.named label) (kind : NodeKind) {status status' : Status}
    (alike : status = .waiting ↔ status' = .waiting) (contexts : bridge.contexts cx cx') :
    bridge.contexts (cx.settle label kind status) (cx'.settle label kind status') := by
  unfold Context.settle
  by_cases waits : status = .waiting
  · rw [if_pos waits, if_pos (alike.mp waits)]
    exact contexts
  · rw [if_neg waits, if_neg (mt alike.mpr waits)]
    exact sound.announce named contexts kind .waiting

theorem rearm_matches (named : bridge.named label) (mode : PollMode) (period : Nat) (halts : Bool)
    (contexts : bridge.contexts cx cx') :
    (rearm label mode period halts cx).1 = (rearm label mode period halts cx').1 ∧
      bridge.contexts (rearm label mode period halts cx).2
        (rearm label mode period halts cx').2 := by
  unfold rearm
  split
  · exact ⟨rfl, contexts⟩
  · obtain ⟨timer, after⟩ := sound.after named contexts period
    exact ⟨congrArg some timer, after⟩

theorem startAction_matches (named : bridge.named label) {unit : H.Action} {unit' : H'.Action}
    (units : bridge.actions unit unit') (task : Option Nat) (contexts : bridge.contexts cx cx') :
    (startAction label unit task cx).Matches bridge (startAction label unit' task cx') := by
  have started := sound.step named (nofun : Phase.start ≠ .stop) sound.active units
    (sound.announce named (sound.cancel contexts task) .actionNode .running) none
  unfold startAction
  dsimp only
  rw [← sound.running started.status]
  split
  · have updated := sound.step named (nofun : Phase.update ≠ .stop) sound.active started.unit
      started.cx none
    rw [← sound.running updated.status]
    split
    · obtain ⟨task, registered⟩ := sound.everyTick named updated.cx
      exact ⟨sound.active, updated.unit, congrArg some task, registered, rfl⟩
    · exact updated
  · exact started

theorem haltAction_matches (named : bridge.named label) {status status' : Status}
    (face : bridge.faces status status') {unit : H.Action} {unit' : H'.Action}
    (units : bridge.actions unit unit') (contexts : bridge.contexts cx cx') :
    (haltAction label status unit cx).Matches bridge bridge.actions
      (haltAction label status' unit' cx') := by
  unfold haltAction
  rw [← sound.running face]
  split
  · obtain ⟨unit, called⟩ := sound.halt named units contexts
    exact ⟨unit, called⟩
  · exact ⟨units, contexts⟩

variable (rel : σ → σ' → Prop) {activate : σ → Context H → Turn H σ}
  {activate' : σ' → Context H' → Turn H' σ'} {halt : σ → Context H → Stopped H σ}
  {halt' : σ' → Context H' → Stopped H' σ'} {kid : σ} {kid' : σ'}

theorem react_matches
    (halts : ∀ kid kid' cx cx', rel kid kid' → bridge.contexts cx cx' →
      (halt kid cx).Matches bridge rel (halt' kid' cx'))
    (named : bridge.named label) (order : Order) {report report' : Report}
    (same : report = report') (kids : rel kid kid') (contexts : bridge.contexts cx cx') :
    (order.react label halt report kid cx).Matches bridge rel
      (order.react label halt' report' kid' cx') := by
  subst same
  induction report generalizing kid kid' cx cx' with
  | nil => exact ⟨kids, contexts, rfl, rfl⟩
  | cons status report ih =>
    have halted := halts _ _ _ _ kids contexts
    cases order with
    | selector =>
      cases status with
      | success =>
        exact ⟨halted.live, sound.announce named halted.cx .selector .success, rfl, rfl⟩
      | running =>
        have heard := ih halted.live (sound.announce named halted.cx .selector .running)
        exact ⟨heard.later, heard.cx, congrArg (_ :: ·) heard.report, heard.advances⟩
      | failure => exact ⟨kids, contexts, rfl, rfl⟩
      | _ => exact ih kids contexts
    | sequencer =>
      cases status with
      | success => exact ⟨kids, sound.announce named contexts .sequencer .running, rfl, rfl⟩
      | running =>
        have heard := ih kids (sound.announce named contexts .sequencer .running)
        exact ⟨heard.later, heard.cx, congrArg (_ :: ·) heard.report, heard.advances⟩
      | failure =>
        exact ⟨halted.live, sound.announce named halted.cx .sequencer .failure, rfl, rfl⟩
      | _ => exact ih kids contexts

theorem repeatChild_matches
    (activates : ∀ kid kid' cx cx', rel kid kid' → bridge.contexts cx cx' →
      (activate kid cx).Matches bridge rel (activate' kid' cx'))
    (named : bridge.named label) (deferred : Option Nat) (kids : rel kid kid')
    (contexts : bridge.contexts cx cx') :
    (repeatChild label activate deferred kid cx).Matches bridge rel
      (repeatChild label activate' deferred kid' cx') := by
  have active := activates _ _ _ _ kids contexts
  unfold repeatChild
  dsimp only
  rw [← active.report]
  split
  · obtain ⟨task, registered⟩ := sound.everyTick named active.cx
    exact ⟨congrArg some task, active.live, registered⟩
  · exact ⟨rfl, active.live, active.cx⟩

theorem cycleChild_matches
    (activates : ∀ kid kid' cx cx', rel kid kid' → bridge.contexts cx cx' →
      (activate kid cx).Matches bridge rel (activate' kid' cx'))
    (named : bridge.named label) (period : Nat) (kids : rel kid kid')
    (contexts : bridge.contexts cx cx') :
    (cycleChild label period activate kid cx).Matches bridge rel
      (cycleChild label period activate' kid' cx') := by
  have active := activates _ _ _ _ kids (sound.announce named contexts .loop .running)
  obtain ⟨task, registered⟩ := sound.after named active.cx period
  exact ⟨congrArg some task, active.live, registered⟩

theorem accompany_matches
    (activates : ∀ kid kid' cx cx', rel kid kid' → bridge.contexts cx cx' →
      (activate kid cx).Matches bridge rel (activate' kid' cx'))
    (halts : ∀ kid kid' cx cx', rel kid kid' → bridge.contexts cx cx' →
      (halt kid cx).Matches bridge rel (halt' kid' cx'))
    (named : bridge.named label) {report report' : Report} (same : report = report')
    (kids : rel kid kid') (contexts : bridge.contexts cx cx') :
    (accompany label activate halt report kid cx).Matches bridge rel
      (accompany label activate' halt' report' kid' cx') := by
  subst same
  induction report generalizing kid kid' cx cx' with
  | nil => exact ⟨kids, contexts, rfl⟩
  | cons status report ih =>
    unfold accompany
    split
    · have halted := halts _ _ _ _ kids contexts
      have beside := ih halted.live (sound.announce named halted.cx .simpleParallel status)
      exact ⟨beside.live, beside.cx, congrArg (_ :: ·) beside.report⟩
    · split
      · have active := activates _ _ _ _ kids contexts
        have beside := ih active.live (sound.announce named active.cx .simpleParallel status)
        exact ⟨beside.live, beside.cx, congrArg (_ :: ·) beside.report⟩
      · exact ih kids contexts

theorem pollGate_matches
    (activates : ∀ kid kid' cx cx', rel kid kid' → bridge.contexts cx cx' →
      (activate kid cx).Matches bridge rel (activate' kid' cx'))
    (halts : ∀ kid kid' cx cx', rel kid kid' → bridge.contexts cx cx' →
      (halt kid cx).Matches bridge rel (halt' kid' cx'))
    (named : bridge.named label) (mode : PollMode) (period : Nat) (status : Status)
    {unit : H.Condition} {unit' : H'.Condition} (units : bridge.gates unit unit') (last : Status)
    (kids : rel kid kid') (contexts : bridge.contexts cx cx') :
    (pollGate label mode period activate halt status unit last kid cx).Matches bridge rel
      (pollGate label mode period activate' halt' status unit' last kid' cx') := by
  obtain ⟨same, after, polled⟩ := sound.poll named units contexts
  -- both conditions answer the same, so the cases of one side are those of the other
  match answer : (cx.poll label unit).answer with
  | none =>
    have answer' := same.symm.trans answer
    have halted := halts _ _ _ _ kids polled
    rw [pollGate_faulted answer, pollGate_faulted answer']
    exact ⟨rfl, after, rfl, rfl, halted.live,
      sound.announce named halted.cx .loopConditionNode .warning, rfl⟩
  | some true =>
    have answer' := same.symm.trans answer
    by_cases succeeded : last = .success
    · obtain ⟨timer, armed⟩ := rearm_matches sound named mode period false polled
      rw [pollGate_content answer succeeded, pollGate_content answer' succeeded]
      exact ⟨rfl, after, timer, rfl, kids, armed, rfl⟩
    · have active :=
        activates _ _ _ _ kids (sound.announce named polled .loopConditionNode .running)
      rw [pollGate_opens answer succeeded, pollGate_opens answer' succeeded]
      dsimp only
      rw [← active.report]
      obtain ⟨timer, armed⟩ := rearm_matches sound named mode period _
        (announceAll_matches sound named .loopConditionNode _ active.cx)
      exact ⟨rfl, after, timer, rfl, active.live, armed, rfl⟩
  | some false =>
    have answer' := same.symm.trans answer
    by_cases failed : last = .failure
    · obtain ⟨timer, armed⟩ := rearm_matches sound named mode period false polled
      rw [pollGate_closed answer failed, pollGate_closed answer' failed]
      exact ⟨rfl, after, timer, rfl, kids, armed, rfl⟩
    · have halted := halts _ _ _ _ kids (sound.announce named polled .loopConditionNode .failure)
      obtain ⟨timer, armed⟩ := rearm_matches sound named mode period (mode = .trueToFalse) halted.cx
      rw [pollGate_closes answer failed, pollGate_closes answer' failed]
      exact ⟨rfl, after, timer, rfl, halted.live, armed, rfl⟩

end Rules

mutual

/-- The two states have one shape, names and bounds included, and correspond node by node. Only
leaves may show different states. -/
inductive Live.Matches (bridge : Bridge H H') :
    {tree : Tree H} → {tree' : Tree H'} → Live H tree → Live H' tree' → Prop where
  | relay {label : Label} {child : Tree H} {child' : Tree H'} {kid : Live H child}
      {kid' : Live H' child'} (role : Relay) (status : Status) (named : bridge.named label)
      (below : Live.Matches bridge kid kid') :
      Live.Matches bridge (.relay status kid : Live H (.relay role label child))
        (.relay status kid' : Live H' (.relay role label child'))
  | repeater {label : Label} {child : Tree H} {child' : Tree H'} {kid : Live H child}
      {kid' : Live H' child'} (status : Status) (deferred : Option Nat) (named : bridge.named label)
      (below : Live.Matches bridge kid kid') :
      Live.Matches bridge (.repeater status deferred kid : Live H (.repeater label child))
        (.repeater status deferred kid' : Live H' (.repeater label child'))
  | loop {label : Label} {child : Tree H} {child' : Tree H'} {kid : Live H child}
      {kid' : Live H' child'} (period : Nat) (status : Status) (timer : Option Nat)
      (named : bridge.named label) (below : Live.Matches bridge kid kid') :
      Live.Matches bridge (.loop status timer kid : Live H (.loop label period child))
        (.loop status timer kid' : Live H' (.loop label period child'))
  | gate {label : Label} {bound unit : H.Condition} {bound' unit' : H'.Condition} {child : Tree H}
      {child' : Tree H'} {kid : Live H child} {kid' : Live H' child'} (mode : PollMode)
      (period : Nat) (status : Status) (timer : Option Nat) (last : Status)
      (named : bridge.named label) (units : bridge.gates unit unit')
      (below : Live.Matches bridge kid kid') :
      Live.Matches bridge
        (.gate status unit timer last kid : Live H (.gate label bound mode period child))
        (.gate status unit' timer last kid' : Live H' (.gate label bound' mode period child'))
  | ordered {label : Label} {children : Forest H} {children' : Forest H'}
      {kids : LiveForest H children} {kids' : LiveForest H' children'} (order : Order)
      (status : Status)
      (named : bridge.named label) (below : LiveForest.Matches bridge kids kids') :
      Live.Matches bridge (.ordered status kids : Live H (.ordered order label children))
        (.ordered status kids' : Live H' (.ordered order label children'))
  | weighted {label : Label} {children : Forest H} {children' : Forest H'}
      {kids : LiveForest H children} {kids' : LiveForest H' children'} (bounds : List Single)
      (status : Status)
      (selected : Option Nat) (named : bridge.named label)
      (below : LiveForest.Matches bridge kids kids') :
      Live.Matches bridge
        (.weighted status selected kids : Live H (.weighted label bounds children))
        (.weighted status selected kids' : Live H' (.weighted label bounds children'))
  | parallel {label : Label} {main background : Tree H} {main' background' : Tree H'}
      {first : Live H main} {second : Live H background} {first' : Live H' main'}
      {second' : Live H' background'} (status : Status) (named : bridge.named label)
      (before : Live.Matches bridge first first') (beside : Live.Matches bridge second second') :
      Live.Matches bridge (.parallel status first second : Live H (.parallel label main background))
        (.parallel status first' second' : Live H' (.parallel label main' background'))
  | condition {label : Label} {bound unit : H.Condition} {bound' unit' : H'.Condition}
      {status status' : Status} (named : bridge.named label) (face : bridge.faces status status')
      (units : bridge.conditions unit unit') :
      Live.Matches bridge (.condition status unit : Live H (.condition label bound))
        (.condition status' unit' : Live H' (.condition label bound'))
  | action {label : Label} {bound unit : H.Action} {bound' unit' : H'.Action}
      {status status' : Status} (task : Option Nat) (named : bridge.named label)
      (face : bridge.faces status status') (units : bridge.actions unit unit') :
      Live.Matches bridge (.action status unit task : Live H (.action label bound))
        (.action status' unit' task : Live H' (.action label bound'))

inductive LiveForest.Matches (bridge : Bridge H H') :
    {trees : Forest H} → {trees' : Forest H'} → LiveForest H trees → LiveForest H' trees' →
    Prop where
  | nil : LiveForest.Matches bridge .nil .nil
  | cons {tree : Tree H} {tree' : Tree H'} {trees : Forest H} {trees' : Forest H'}
      {head : Live H tree} {head' : Live H' tree'} {tail : LiveForest H trees}
      {tail' : LiveForest H' trees'} (here : Live.Matches bridge head head')
      (after : LiveForest.Matches bridge tail tail') :
      LiveForest.Matches bridge (.cons head tail) (.cons head' tail')

end

structure Bridge.Reflects (bridge : Bridge H H) : Prop where
  gates : ∀ unit, bridge.gates unit unit
  conditions : ∀ unit, bridge.conditions unit unit
  actions : ∀ unit, bridge.actions unit unit
  faces : ∀ status, bridge.faces status status

section Selves

variable {bridge : Bridge H H}

mutual

theorem matches_self (reflects : bridge.Reflects) : {tree : Tree H} → (live : Live H tree) →
    (∀ label ∈ tree.labels, bridge.named label) → live.Matches bridge live
  | _, .relay status kid, named =>
    have ⟨own, below⟩ := List.forall_mem_cons.mp named
    .relay _ status own (matches_self reflects kid below)
  | _, .repeater status deferred kid, named =>
    have ⟨own, below⟩ := List.forall_mem_cons.mp named
    .repeater status deferred own (matches_self reflects kid below)
  | _, .loop status timer kid, named =>
    have ⟨own, below⟩ := List.forall_mem_cons.mp named
    .loop _ status timer own (matches_self reflects kid below)
  | _, .gate status unit timer last kid, named =>
    have ⟨own, below⟩ := List.forall_mem_cons.mp named
    .gate _ _ status timer last own (reflects.gates unit) (matches_self reflects kid below)
  | _, .ordered status kids, named =>
    have ⟨own, below⟩ := List.forall_mem_cons.mp named
    .ordered _ status own (matches_self_all reflects kids below)
  | _, .weighted status selected kids, named =>
    have ⟨own, below⟩ := List.forall_mem_cons.mp named
    .weighted _ status selected own (matches_self_all reflects kids below)
  | _, .parallel status first second, named =>
    have ⟨own, below⟩ := List.forall_mem_cons.mp named
    have ⟨before, beside⟩ := List.forall_mem_append.mp below
    .parallel status own (matches_self reflects first before) (matches_self reflects second beside)
  | _, .condition status unit, named =>
    .condition (List.forall_mem_singleton.mp named) (reflects.faces status)
      (reflects.conditions unit)
  | _, .action status unit task, named =>
    .action task (List.forall_mem_singleton.mp named) (reflects.faces status)
      (reflects.actions unit)

theorem matches_self_all (reflects : bridge.Reflects) : {trees : Forest H} →
    (lives : LiveForest H trees) → (∀ label ∈ trees.labels, bridge.named label) →
    lives.Matches bridge lives
  | _, .nil, _ => .nil
  | _, .cons head tail, named =>
    have ⟨here, after⟩ := List.forall_mem_append.mp named
    .cons (matches_self reflects head here) (matches_self_all reflects tail after)

end

end Selves

variable {bridge : Bridge H H'}

mutual

theorem matches_limit : {tree : Tree H} → {tree' : Tree H'} → {live : Live H tree} →
    {live' : Live H' tree'} → live.Matches bridge live' →
    tree.label = tree'.label ∧ tree.limit = tree'.limit
  | _, _, _, _, .relay _ _ _ below | _, _, _, _, .repeater _ _ _ below
  | _, _, _, _, .loop _ _ _ _ below | _, _, _, _, .gate _ _ _ _ _ _ _ below =>
    ⟨rfl, congrArg _ (matches_limit below).2⟩
  | _, _, _, _, .ordered _ _ _ below | _, _, _, _, .weighted _ _ _ _ below =>
    ⟨rfl, congrArg _ (matches_limit_all below)⟩
  | _, _, _, _, .parallel _ _ before beside =>
    ⟨rfl, congrArg _ (congrArg₂ max (matches_limit before).2 (matches_limit beside).2)⟩
  | _, _, _, _, .condition _ _ _ | _, _, _, _, .action _ _ _ _ => ⟨rfl, rfl⟩

theorem matches_limit_all : {trees : Forest H} → {trees' : Forest H'} →
    {lives : LiveForest H trees} → {lives' : LiveForest H' trees'} →
    lives.Matches bridge lives' → trees.limit = trees'.limit
  | _, _, _, _, .nil => rfl
  | _, _, _, _, .cons here after =>
    congrArg₂ max (matches_limit here).2 (matches_limit_all after)

end

theorem matches_covers {tree : Tree H} {tree' : Tree H'} {live : Live H tree}
    {live' : Live H' tree'} (alike : live.Matches bridge live') (id : Nat) :
    tree'.covers id = tree.covers id := by
  obtain ⟨label, limit⟩ := matches_limit alike
  rw [Tree.covers, Tree.covers, Tree.id, Tree.id, label, limit]

theorem matches_route : {trees : Forest H} → {trees' : Forest H'} → {lives : LiveForest H trees} →
    {lives' : LiveForest H' trees'} → lives.Matches bridge lives' → (id : Nat) →
    trees'.route? id = trees.route? id
  | _, _, _, _, .nil, _ => rfl
  | _, _, _, _, .cons here after, id => by
    simp only [Forest.route?, matches_covers here id, matches_route after id]

mutual

theorem stop_matches (sound : bridge.Sound) : {tree : Tree H} → {tree' : Tree H'} →
    {live : Live H tree} → {live' : Live H' tree'} → live.Matches bridge live' →
    {cx : Context H} → {cx' : Context H'} → bridge.contexts cx cx' →
    (stop tree live cx).Matches bridge (Live.Matches bridge) (stop tree' live' cx')
  | _, _, _, _, .relay role status named below, _, _, contexts => by
    have halted := stop_matches sound below contexts
    rw [stop, stop]
    exact ⟨.relay role .waiting named halted.live,
      settle_matches sound named role.kind Iff.rfl halted.cx⟩
  | _, _, _, _, .repeater status deferred named below, _, _, contexts => by
    have halted := stop_matches sound below (sound.cancel contexts deferred)
    rw [stop, stop]
    exact ⟨.repeater .waiting none named halted.live,
      settle_matches sound named .repeater Iff.rfl halted.cx⟩
  | _, _, _, _, .loop period status timer named below, _, _, contexts => by
    have halted := stop_matches sound below (sound.cancel contexts timer)
    rw [stop, stop]
    exact ⟨.loop period .waiting none named halted.live,
      settle_matches sound named .loop Iff.rfl halted.cx⟩
  | _, _, _, _, .gate mode period status timer last named units below, _, _, contexts => by
    have halted := stop_matches sound below (sound.cancel contexts timer)
    rw [stop, stop]
    exact ⟨.gate mode period .waiting none last named units halted.live,
      settle_matches sound named .loopConditionNode Iff.rfl halted.cx⟩
  | _, _, _, _, .ordered order status named below, _, _, contexts => by
    have halted := stopAll_matches sound below contexts
    rw [stop, stop]
    exact ⟨.ordered order .waiting named halted.live,
      settle_matches sound named order.kind Iff.rfl halted.cx⟩
  | _, _, _, _, .weighted bounds status _ named below, _, _, contexts => by
    have halted := stopAll_matches sound below contexts
    rw [stop, stop]
    exact ⟨.weighted bounds .waiting none named halted.live,
      settle_matches sound named .weightedRandomSelector Iff.rfl halted.cx⟩
  | _, _, _, _, .parallel status named before beside, _, _, contexts => by
    have first := stop_matches sound before contexts
    have second := stop_matches sound beside first.cx
    rw [stop, stop]
    exact ⟨.parallel .waiting named first.live second.live,
      settle_matches sound named .simpleParallel Iff.rfl second.cx⟩
  | _, _, _, _, .condition named face units, _, _, contexts => by
    rw [stop, stop]
    exact ⟨.condition named sound.idle units,
      settle_matches sound named .conditionNode (sound.waiting face) contexts⟩
  | _, _, _, _, .action task named face units, _, _, contexts => by
    have halted := haltAction_matches sound named face units (sound.cancel contexts task)
    rw [stop, stop]
    exact ⟨.action none named sound.idle halted.live,
      settle_matches sound named .actionNode (sound.waiting face) halted.cx⟩

theorem stopAll_matches (sound : bridge.Sound) : {trees : Forest H} → {trees' : Forest H'} →
    {lives : LiveForest H trees} → {lives' : LiveForest H' trees'} → lives.Matches bridge lives' →
    {cx : Context H} → {cx' : Context H'} → bridge.contexts cx cx' →
    (stopAll trees lives cx).Matches bridge (LiveForest.Matches bridge) (stopAll trees' lives' cx')
  | _, _, _, _, .nil, _, _, contexts => by
    rw [stopAll, stopAll]
    exact ⟨.nil, contexts⟩
  | _, _, _, _, .cons here after, _, _, contexts => by
    have first := stop_matches sound here contexts
    have rest := stopAll_matches sound after first.cx
    rw [stopAll, stopAll]
    exact ⟨.cons first.live rest.live, rest.cx⟩

end

mutual

theorem evaluate_matches (sound : bridge.Sound) : {tree : Tree H} → {tree' : Tree H'} →
    {live : Live H tree} → {live' : Live H' tree'} → live.Matches bridge live' →
    {cx : Context H} → {cx' : Context H'} → bridge.contexts cx cx' →
    (evaluate tree live cx).Matches bridge (Live.Matches bridge) (evaluate tree' live' cx')
  | _, _, _, _, .relay role status named below, _, _, contexts => by
    rw [evaluate, evaluate]
    split
    · exact ⟨.relay role status named below, contexts, rfl⟩
    · have active := evaluate_matches sound below (sound.announce named contexts role.kind .running)
      dsimp only
      rw [← active.report]
      exact ⟨.relay role _ named active.live,
        announceAll_matches sound named role.kind _ active.cx, rfl⟩
  | _, _, _, _, .repeater status deferred named below, _, _, contexts => by
    rw [evaluate, evaluate]
    split
    · exact ⟨.repeater status deferred named below, contexts, rfl⟩
    · have active := repeatChild_matches sound (Live.Matches bridge)
        (fun _ _ _ _ kids => evaluate_matches sound kids) named none below
        (sound.announce named (sound.cancel contexts deferred) .repeater .running)
      dsimp only
      rw [← active.deferred]
      exact ⟨.repeater .running _ named active.kid, active.cx, rfl⟩
  | _, _, _, _, .loop period status timer named below, _, _, contexts => by
    rw [evaluate, evaluate]
    split
    · exact ⟨.loop period status timer named below, contexts, rfl⟩
    · have active := cycleChild_matches sound (Live.Matches bridge)
        (fun _ _ _ _ kids => evaluate_matches sound kids) named period below
        (sound.cancel contexts timer)
      dsimp only
      rw [← active.deferred]
      exact ⟨.loop period .running _ named active.kid, active.cx, rfl⟩
  | _, _, _, _, .gate mode period status timer last named units below, _, _, contexts => by
    rw [evaluate, evaluate]
    split
    · exact ⟨.gate mode period status timer last named units below, contexts, rfl⟩
    · have polled := pollGate_matches sound (Live.Matches bridge)
        (fun _ _ _ _ kids => evaluate_matches sound kids)
        (fun _ _ _ _ kids => stop_matches sound kids) named mode period .running units .running
        below (sound.announce named (sound.cancel contexts timer) .loopConditionNode .running)
      dsimp only
      rw [← polled.status, ← polled.timer, ← polled.last]
      exact ⟨.gate mode period _ _ _ named polled.unit polled.kid, polled.cx, polled.report⟩
  | _, _, _, _, .ordered order status named below, _, _, contexts => by
    rw [evaluate, evaluate]
    split
    · exact ⟨.ordered order status named below, contexts, rfl⟩
    · have ran := runFrom_matches sound named order below
        (sound.announce named contexts order.kind .running)
      dsimp only
      rw [← ran.report]
      exact ⟨.ordered order _ named ran.live, ran.cx, rfl⟩
  | _, _, _, _, .weighted bounds status selected named below, _, _, contexts => by
    rw [evaluate, evaluate]
    split
    · exact ⟨.weighted bounds status selected named below, contexts, rfl⟩
    · obtain ⟨sample, drawn⟩ :=
        sound.draw (sound.announce named contexts .weightedRandomSelector .running)
      have active := evaluateAt_matches sound below (congrArg (Weights.pick bounds) sample) drawn
      dsimp only
      -- one sample on both sides picks one child
      rw [← sample] at active ⊢
      rw [← active.report]
      exact ⟨.weighted bounds _ _ named active.live,
        announceAll_matches sound named .weightedRandomSelector _ active.cx, rfl⟩
  | _, _, _, _, .parallel status named before beside, _, _, contexts => by
    rw [evaluate, evaluate]
    split
    · exact ⟨.parallel status named before beside, contexts, rfl⟩
    · have active := evaluate_matches sound before
        (sound.announce named contexts .simpleParallel .running)
      have heard := accompany_matches sound (Live.Matches bridge)
        (fun _ _ _ _ kids => evaluate_matches sound kids)
        (fun _ _ _ _ kids => stop_matches sound kids) named active.report beside active.cx
      dsimp only
      rw [← heard.report]
      split
      · have started := evaluate_matches sound heard.live heard.cx
        exact ⟨.parallel _ named active.live started.live, started.cx, rfl⟩
      · exact ⟨.parallel _ named active.live heard.live, heard.cx, rfl⟩
  | _, _, _, _, .condition named face units, _, _, contexts => by
    rw [evaluate, evaluate, ← sound.running face]
    split
    · exact ⟨.condition named face units, contexts, rfl⟩
    · obtain ⟨face, report, units, ran⟩ := sound.ask named units contexts
      exact ⟨.condition named face units, ran, report⟩
  | _, _, _, _, .action task named face units, _, _, contexts => by
    rw [evaluate, evaluate, ← sound.running face]
    split
    · exact ⟨.action task named face units, contexts, rfl⟩
    · have ran := startAction_matches sound named units task contexts
      dsimp only
      rw [← ran.task]
      exact ⟨.action _ named ran.status ran.unit, ran.cx, ran.report⟩

theorem runFrom_matches (sound : bridge.Sound) {label : Label} (named : bridge.named label)
    (order : Order) : {trees : Forest H} → {trees' : Forest H'} → {lives : LiveForest H trees} →
    {lives' : LiveForest H' trees'} → lives.Matches bridge lives' → {cx : Context H} →
    {cx' : Context H'} → bridge.contexts cx cx' →
    (runFrom order label trees lives cx).Matches bridge (LiveForest.Matches bridge)
      (runFrom order label trees' lives' cx')
  | _, _, _, _, .nil, _, _, contexts => by
    rw [runFrom, runFrom]
    exact ⟨.nil, sound.announce named contexts order.kind order.exhausted, rfl⟩
  | _, _, _, _, .cons here after, _, _, contexts => by
    have active := evaluate_matches sound here contexts
    rw [runFrom, runFrom]
    have heard := react_matches sound (LiveForest.Matches bridge)
      (fun _ _ _ _ kids => stopAll_matches sound kids) named order active.report after active.cx
    dsimp only
    rw [← heard.advances, ← heard.report]
    split
    · have rest := runFrom_matches sound named order heard.later heard.cx
      exact ⟨.cons active.live rest.live, rest.cx, congrArg _ rest.report⟩
    · exact ⟨.cons active.live heard.later, heard.cx, rfl⟩

theorem evaluateAt_matches (sound : bridge.Sound) : {trees : Forest H} → {trees' : Forest H'} →
    {lives : LiveForest H trees} → {lives' : LiveForest H' trees'} → lives.Matches bridge lives' →
    {index index' : Nat} → index = index' → {cx : Context H} → {cx' : Context H'} →
    bridge.contexts cx cx' →
    (evaluateAt trees index lives cx).Matches bridge (LiveForest.Matches bridge)
      (evaluateAt trees' index' lives' cx')
  | _, _, _, _, .nil, _, _, rfl, _, _, contexts => by
    rw [evaluateAt, evaluateAt]
    exact ⟨.nil, contexts, rfl⟩
  | _, _, _, _, .cons here after, 0, _, rfl, _, _, contexts => by
    have active := evaluate_matches sound here contexts
    rw [evaluateAt, evaluateAt]
    exact ⟨.cons active.live after, active.cx, active.report⟩
  | _, _, _, _, .cons here after, index + 1, _, rfl, _, _, contexts => by
    have active := evaluateAt_matches sound after (Eq.refl index) contexts
    rw [evaluateAt, evaluateAt]
    exact ⟨.cons here active.live, active.cx, active.report⟩

end

section Nodes

variable {wake : Wake} {label : Label} {child : Tree H} {child' : Tree H'} {kid : Live H child}
  {kid' : Live H' child'} {cx : Context H} {cx' : Context H'} (sound : bridge.Sound)
  (named : bridge.named label) (below : kid.Matches bridge kid') (contexts : bridge.contexts cx cx')
  (turn : (resume wake child kid cx).Matches bridge (Live.Matches bridge)
    (resume wake child' kid' cx'))

include sound named below contexts turn

theorem repeater_matches (status : Status) (deferred : Option Nat) :
    (resume wake (.repeater label child) (.repeater status deferred kid) cx).Matches bridge
      (Live.Matches bridge)
      (resume wake (.repeater label child') (.repeater status deferred kid') cx') := by
  have again {kid : Live H child} {kid' : Live H' child'} {cx : Context H} {cx' : Context H'}
      (deferred : Option Nat) (kids : kid.Matches bridge kid')
      (contexts : bridge.contexts cx cx') :=
    repeatChild_matches sound (Live.Matches bridge)
      (fun _ _ _ _ kids => evaluate_matches sound kids) named deferred kids contexts
  rw [resume, resume, matches_covers below]
  split
  · split
    · have active := again none below (sound.cancel contexts deferred)
      dsimp only
      rw [← active.deferred]
      exact ⟨.repeater status _ named active.kid, active.cx, rfl⟩
    · exact ⟨.repeater status deferred named below, contexts, rfl⟩
  · split
    · dsimp only
      rw [← turn.report]
      split
      · have active := again deferred turn.live turn.cx
        rw [← active.deferred]
        exact ⟨.repeater status _ named active.kid, active.cx, rfl⟩
      · exact ⟨.repeater status deferred named turn.live, turn.cx, rfl⟩
    · exact ⟨.repeater status deferred named below, contexts, rfl⟩

theorem gate_matches {bound unit : H.Condition} {bound' unit' : H'.Condition} (mode : PollMode)
    (period : Nat) (status : Status) (timer : Option Nat) (last : Status)
    (units : bridge.gates unit unit') :
    (resume wake (.gate label bound mode period child) (.gate status unit timer last kid)
      cx).Matches bridge (Live.Matches bridge)
      (resume wake (.gate label bound' mode period child') (.gate status unit' timer last kid')
        cx') := by
  rw [resume, resume, matches_covers below]
  split
  · split
    · have polled := pollGate_matches sound (Live.Matches bridge)
        (fun _ _ _ _ kids => evaluate_matches sound kids)
        (fun _ _ _ _ kids => stop_matches sound kids) named mode period status units last below
        contexts
      dsimp only
      rw [← polled.status, ← polled.timer, ← polled.last]
      exact ⟨.gate mode period _ _ _ named polled.unit polled.kid, polled.cx, polled.report⟩
    · exact ⟨.gate mode period status timer last named units below, contexts, rfl⟩
  · split
    · have told (report : Report) :=
        announceAll_matches sound named .loopConditionNode report turn.cx
      dsimp only
      rw [← turn.report]
      split
      · exact ⟨.gate mode period _ none _ named units turn.live, sound.cancel (told _) timer, rfl⟩
      · exact ⟨.gate mode period _ timer _ named units turn.live, told _, rfl⟩
    · exact ⟨.gate mode period status timer last named units below, contexts, rfl⟩

end Nodes

theorem parallel_matches (sound : bridge.Sound) {wake : Wake} {label : Label}
    {main background : Tree H} {main' background' : Tree H'} {first : Live H main}
    {second : Live H background} {first' : Live H' main'} {second' : Live H' background'}
    {cx : Context H} {cx' : Context H'} (status : Status) (named : bridge.named label)
    (before : first.Matches bridge first') (beside : second.Matches bridge second')
    (contexts : bridge.contexts cx cx')
    (led : (resume wake main first cx).Matches bridge (Live.Matches bridge)
      (resume wake main' first' cx'))
    (attended : (resume wake background second cx).Matches bridge (Live.Matches bridge)
      (resume wake background' second' cx')) :
    (resume wake (.parallel label main background) (.parallel status first second) cx).Matches
      bridge (Live.Matches bridge)
      (resume wake (.parallel label main' background') (.parallel status first' second') cx') := by
  rw [resume, resume, matches_covers before, matches_covers beside]
  split
  · have heard := accompany_matches sound (Live.Matches bridge)
      (fun _ _ _ _ kids => evaluate_matches sound kids)
      (fun _ _ _ _ kids => stop_matches sound kids) named led.report beside led.cx
    dsimp only
    rw [← heard.report]
    exact ⟨.parallel _ named led.live heard.live, heard.cx, rfl⟩
  · split
    · exact ⟨.parallel status named before attended.live, attended.cx, rfl⟩
    · exact ⟨.parallel status named before beside, contexts, rfl⟩

mutual

theorem resume_matches (sound : bridge.Sound) (wake : Wake) : {tree : Tree H} → {tree' : Tree H'} →
    {live : Live H tree} → {live' : Live H' tree'} → live.Matches bridge live' →
    {cx : Context H} → {cx' : Context H'} → bridge.contexts cx cx' →
    (resume wake tree live cx).Matches bridge (Live.Matches bridge) (resume wake tree' live' cx')
  | _, _, _, _, .relay role status named below, _, _, contexts => by
    have turn := resume_matches sound wake below contexts
    rw [resume, resume, matches_covers below]
    split
    · dsimp only
      rw [← turn.report]
      exact ⟨.relay role _ named turn.live,
        announceAll_matches sound named role.kind _ turn.cx, rfl⟩
    · exact ⟨.relay role status named below, contexts, rfl⟩
  | _, _, _, _, .repeater status deferred named below, _, _, contexts =>
    repeater_matches sound named below contexts (resume_matches sound wake below contexts) status
      deferred
  | _, _, _, _, .loop period status timer named below, _, _, contexts => by
    have turn := resume_matches sound wake below contexts
    rw [resume, resume, matches_covers below]
    split
    · split
      · have active := cycleChild_matches sound (Live.Matches bridge)
          (fun _ _ _ _ kids => evaluate_matches sound kids) named period below contexts
        dsimp only
        rw [← active.deferred]
        exact ⟨.loop period .running _ named active.kid, active.cx, rfl⟩
      · exact ⟨.loop period status timer named below, contexts, rfl⟩
    · split
      · exact ⟨.loop period status timer named turn.live, turn.cx, rfl⟩
      · exact ⟨.loop period status timer named below, contexts, rfl⟩
  | _, _, _, _, .gate mode period status timer last named units below, _, _, contexts =>
    gate_matches sound named below contexts (resume_matches sound wake below contexts) mode period
      status timer last units
  | _, _, _, _, .ordered order status named below, _, _, contexts => by
    have turn := resumeFrom_matches sound wake named order below contexts
    rw [resume, resume, ← turn.report]
    exact ⟨.ordered order _ named turn.live, turn.cx, rfl⟩
  | _, _, _, _, .weighted bounds status selected named below, _, _, contexts => by
    have turn := resumeRouted_matches sound wake below contexts
    rw [resume, resume, matches_route below]
    dsimp only
    split
    · rw [← turn.report]
      exact ⟨.weighted bounds _ selected named turn.live,
        announceAll_matches sound named .weightedRandomSelector _ turn.cx, rfl⟩
    · exact ⟨.weighted bounds status selected named turn.live, turn.cx, rfl⟩
  | _, _, _, _, .parallel status named before beside, _, _, contexts =>
    parallel_matches sound status named before beside contexts
      (resume_matches sound wake before contexts) (resume_matches sound wake beside contexts)
  | _, _, _, _, .condition named face units, _, _, contexts => by
    rw [resume, resume]
    exact ⟨.condition named face units, contexts, rfl⟩
  | _, _, _, _, .action task named face units, _, _, contexts => by
    rw [resume, resume]
    split
    · have ran := sound.step named (nofun : Phase.update ≠ .stop) face units contexts task
      dsimp only
      rw [← ran.task]
      exact ⟨.action _ named ran.status ran.unit, ran.cx, ran.report⟩
    · exact ⟨.action task named face units, contexts, rfl⟩

theorem resumeFrom_matches (sound : bridge.Sound) (wake : Wake) {label : Label}
    (named : bridge.named label) (order : Order) : {trees : Forest H} → {trees' : Forest H'} →
    {lives : LiveForest H trees} → {lives' : LiveForest H' trees'} → lives.Matches bridge lives' →
    {cx : Context H} → {cx' : Context H'} → bridge.contexts cx cx' →
    (resumeFrom wake order label trees lives cx).Matches bridge (LiveForest.Matches bridge)
      (resumeFrom wake order label trees' lives' cx')
  | _, _, _, _, .nil, _, _, contexts => by
    rw [resumeFrom, resumeFrom]
    exact ⟨.nil, contexts, rfl⟩
  | _, _, _, _, .cons here after, _, _, contexts => by
    rw [resumeFrom, resumeFrom, matches_covers here]
    split
    · have turn := resume_matches sound wake here contexts
      have heard := react_matches sound (LiveForest.Matches bridge)
        (fun _ _ _ _ kids => stopAll_matches sound kids) named order turn.report after turn.cx
      dsimp only
      rw [← heard.advances, ← heard.report]
      split
      · have rest := runFrom_matches sound named order heard.later heard.cx
        exact ⟨.cons turn.live rest.live, rest.cx, congrArg _ rest.report⟩
      · exact ⟨.cons turn.live heard.later, heard.cx, rfl⟩
    · have rest := resumeFrom_matches sound wake named order after contexts
      exact ⟨.cons here rest.live, rest.cx, rest.report⟩

theorem resumeRouted_matches (sound : bridge.Sound) (wake : Wake) : {trees : Forest H} →
    {trees' : Forest H'} → {lives : LiveForest H trees} → {lives' : LiveForest H' trees'} →
    lives.Matches bridge lives' → {cx : Context H} → {cx' : Context H'} →
    bridge.contexts cx cx' →
    (resumeRouted wake trees lives cx).Matches bridge (LiveForest.Matches bridge)
      (resumeRouted wake trees' lives' cx')
  | _, _, _, _, .nil, _, _, contexts => by
    rw [resumeRouted, resumeRouted]
    exact ⟨.nil, contexts, rfl⟩
  | _, _, _, _, .cons here after, _, _, contexts => by
    rw [resumeRouted, resumeRouted, matches_covers here]
    split
    · have turn := resume_matches sound wake here contexts
      exact ⟨.cons turn.live after, turn.cx, turn.report⟩
    · have rest := resumeRouted_matches sound wake after contexts
      exact ⟨.cons here rest.live, rest.cx, rest.report⟩

end

end ReactiveTree
