import ReactiveTree.Evaluation

/-!
Resuming a tree after a task of one of its nodes fell due. The wake is handed down to the node that
it is addressed to; every node on the way reacts to its child's report just as it would have when it
activated the child. A node heeds its own wake only while it still holds the task.
-/

namespace ReactiveTree

variable {H : Host}

def Forest.route? : Forest H → Nat → Option Nat
  | .nil, _ => none
  | .cons tree trees, id =>
    if tree.covers id then some 0 else (trees.route? id).map (· + 1)

mutual

def resume (wake : Wake) : (tree : Tree H) → Live H tree → Context H → Turn H (Live H tree)
  | .relay role label child, .relay status kid, cx =>
    if child.covers wake.node then
      let turn := resume wake child kid cx
      let report := role.hand turn.report
      ⟨.relay (report.getLastD status) turn.live, turn.cx.announceAll label role.kind report,
        report⟩
    else ⟨.relay status kid, cx, []⟩
  | .repeater label child, .repeater status deferred kid, cx =>
    if wake.node = label.id then
      if deferred = some wake.task then
        let turn := repeatChild label (evaluate child) none kid (cx.cancel deferred)
        ⟨.repeater status turn.deferred turn.kid, turn.cx, []⟩
      else ⟨.repeater status deferred kid, cx, []⟩
    else if child.covers wake.node then
      let turn := resume wake child kid cx
      match turn.report.terminal? with
      | some _ =>
        -- the task that is held is not cancelled, though another one may take its place
        let turn := repeatChild label (evaluate child) deferred turn.live turn.cx
        ⟨.repeater status turn.deferred turn.kid, turn.cx, []⟩
      | none => ⟨.repeater status deferred turn.live, turn.cx, []⟩
    else ⟨.repeater status deferred kid, cx, []⟩
  | .loop label period child, .loop status timer kid, cx =>
    if wake.node = label.id then
      if timer = some wake.task then
        let turn := cycleChild label period (evaluate child) kid cx
        ⟨.loop .running turn.deferred turn.kid, turn.cx, [.running]⟩
      else ⟨.loop status timer kid, cx, []⟩
    else if child.covers wake.node then
      -- a loop runs on whatever its child reports
      let turn := resume wake child kid cx
      ⟨.loop status timer turn.live, turn.cx, []⟩
    else ⟨.loop status timer kid, cx, []⟩
  | .gate label _ mode period child, .gate status unit timer last kid, cx =>
    if wake.node = label.id then
      if timer = some wake.task then
        let polled := pollGate label mode period (evaluate child) (stop child) status unit last kid
          cx
        ⟨.gate polled.status polled.unit polled.timer polled.last polled.kid, polled.cx,
          polled.report⟩
      else ⟨.gate status unit timer last kid, cx, []⟩
    else if child.covers wake.node then
      let turn := resume wake child kid cx
      let heard := turn.report.filter Status.isReported
      let cx := turn.cx.announceAll label .loopConditionNode heard
      if mode.haltsOn heard then
        ⟨.gate (heard.getLastD status) unit none (heard.getLastD last) turn.live, cx.cancel timer,
          heard⟩
      else ⟨.gate (heard.getLastD status) unit timer (heard.getLastD last) turn.live, cx, heard⟩
    else ⟨.gate status unit timer last kid, cx, []⟩
  | .ordered order label children, .ordered status kids, cx =>
    let turn := resumeFrom wake order label children kids cx
    ⟨.ordered (turn.report.getLastD status) turn.live, turn.cx, turn.report⟩
  | .weighted label _ children, .weighted status selected kids, cx =>
    let turn := resumeRouted wake children kids cx
    if children.route? wake.node = selected then
      let report := turn.report.filter Status.isReported
      ⟨.weighted (report.getLastD status) selected turn.live,
        turn.cx.announceAll label .weightedRandomSelector report, report⟩
    -- a child that is not the one chosen is not heard
    else ⟨.weighted status selected turn.live, turn.cx, []⟩
  | .parallel label main background, .parallel status first second, cx =>
    if main.covers wake.node then
      let turn := resume wake main first cx
      let beside := accompany label (evaluate background) (stop background) turn.report second
        turn.cx
      ⟨.parallel (beside.report.getLastD status) turn.live beside.live, beside.cx, beside.report⟩
    else if background.covers wake.node then
      -- the background child has no say in the state of the node
      let turn := resume wake background second cx
      ⟨.parallel status first turn.live, turn.cx, []⟩
    else ⟨.parallel status first second, cx, []⟩
  | .condition _ _, live, cx => ⟨live, cx, []⟩
  | .action label _, .action status unit task, cx =>
    if wake.node = label.id ∧ task = some wake.task then
      let ran := stepAction label .update status unit task cx
      ⟨.action ran.status ran.unit ran.task, ran.cx, ran.report⟩
    else ⟨.action status unit task, cx, []⟩

def resumeFrom (wake : Wake) (order : Order) (label : Label) :
    (trees : Forest H) → LiveForest H trees → Context H → Turn H (LiveForest H trees)
  | .nil, .nil, cx => ⟨.nil, cx, []⟩
  | .cons tree trees, .cons head tail, cx =>
    if tree.covers wake.node then
      let turn := resume wake tree head cx
      let heard := order.react label (stopAll trees) turn.report tail turn.cx
      if heard.advances then
        let rest := runFrom order label trees heard.later heard.cx
        ⟨.cons turn.live rest.live, rest.cx, heard.report ++ rest.report⟩
      else ⟨.cons turn.live heard.later, heard.cx, heard.report⟩
    else
      let rest := resumeFrom wake order label trees tail cx
      ⟨.cons head rest.live, rest.cx, rest.report⟩

def resumeRouted (wake : Wake) :
    (trees : Forest H) → LiveForest H trees → Context H → Turn H (LiveForest H trees)
  | .nil, .nil, cx => ⟨.nil, cx, []⟩
  | .cons tree trees, .cons head tail, cx =>
    if tree.covers wake.node then
      let turn := resume wake tree head cx
      ⟨.cons turn.live tail, turn.cx, turn.report⟩
    else
      let rest := resumeRouted wake trees tail cx
      ⟨.cons head rest.live, rest.cx, rest.report⟩

end

end ReactiveTree
