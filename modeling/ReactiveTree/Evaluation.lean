import ReactiveTree.Reaction
import ReactiveTree.Stopping
import ReactiveTree.Weights

/-!
Activating a tree. A node that is running is left alone; any other node starts anew, and children
are activated in the order in which the node comes to them.
-/

namespace ReactiveTree

variable {H : Host}

mutual

def evaluate : (tree : Tree H) → Live H tree → Context H → Turn H (Live H tree)
  | .relay role label child, .relay status kid, cx =>
    if status.isRunning then ⟨.relay status kid, cx, []⟩ else
    let turn := evaluate child kid (cx.announce label role.kind .running)
    let report := role.hand turn.report
    ⟨.relay (report.getLastD .running) turn.live, turn.cx.announceAll label role.kind report,
      report⟩
  | .repeater label child, .repeater status deferred kid, cx =>
    if status.isRunning then ⟨.repeater status deferred kid, cx, []⟩ else
    let turn := repeatChild label (evaluate child) none kid
      ((cx.cancel deferred).announce label .repeater .running)
    ⟨.repeater .running turn.deferred turn.kid, turn.cx, [.running]⟩
  | .loop label period child, .loop status timer kid, cx =>
    if status.isRunning then ⟨.loop status timer kid, cx, []⟩ else
    let turn := cycleChild label period (evaluate child) kid (cx.cancel timer)
    ⟨.loop .running turn.deferred turn.kid, turn.cx, [.running]⟩
  | .gate label _ mode period child, .gate status unit timer last kid, cx =>
    if status.isRunning then ⟨.gate status unit timer last kid, cx, []⟩ else
    -- neither verdict was reported yet, so the first poll always says something
    let polled := pollGate label mode period (evaluate child) (stop child) .running unit .running
      kid ((cx.cancel timer).announce label .loopConditionNode .running)
    ⟨.gate polled.status polled.unit polled.timer polled.last polled.kid, polled.cx,
      polled.report⟩
  | .ordered order label children, .ordered status kids, cx =>
    if status.isRunning then ⟨.ordered status kids, cx, []⟩ else
    let turn := runFrom order label children kids (cx.announce label order.kind .running)
    ⟨.ordered (turn.report.getLastD .running) turn.live, turn.cx, turn.report⟩
  | .weighted label bounds children, .weighted status selected kids, cx =>
    if status.isRunning then ⟨.weighted status selected kids, cx, []⟩ else
    let drawn := (cx.announce label .weightedRandomSelector .running).draw
    let picked := Weights.pick bounds drawn.1
    let turn := evaluateAt children picked kids drawn.2
    let report := turn.report.filter Status.isReported
    ⟨.weighted (report.getLastD .running) (some picked) turn.live,
      turn.cx.announceAll label .weightedRandomSelector report, report⟩
  | .parallel label main background, .parallel status first second, cx =>
    if status.isRunning then ⟨.parallel status first second, cx, []⟩ else
    let turn := evaluate main first (cx.announce label .simpleParallel .running)
    let beside := accompany label (evaluate background) (stop background) turn.report second
      turn.cx
    let status := beside.report.getLastD .running
    -- main may run without having said so
    if status.isRunning then
      let started := evaluate background beside.live beside.cx
      ⟨.parallel status turn.live started.live, started.cx, beside.report⟩
    else ⟨.parallel status turn.live beside.live, beside.cx, beside.report⟩
  | .condition label _, .condition status unit, cx =>
    if status.isRunning then ⟨.condition status unit, cx, []⟩ else
    let ran := runCondition label unit cx
    ⟨.condition ran.answer.1 ran.unit, ran.cx, ran.answer.2⟩
  | .action label _, .action status unit task, cx =>
    if status.isRunning then ⟨.action status unit task, cx, []⟩ else
    let ran := startAction label unit task cx
    ⟨.action ran.status ran.unit ran.task, ran.cx, ran.report⟩

def runFrom (order : Order) (label : Label) :
    (trees : Forest H) → LiveForest H trees → Context H → Turn H (LiveForest H trees)
  | .nil, .nil, cx => ⟨.nil, cx.announce label order.kind order.exhausted, [order.exhausted]⟩
  | .cons tree trees, .cons head tail, cx =>
    let turn := evaluate tree head cx
    let heard := order.react label (stopAll trees) turn.report tail turn.cx
    if heard.advances then
      let rest := runFrom order label trees heard.later heard.cx
      ⟨.cons turn.live rest.live, rest.cx, heard.report ++ rest.report⟩
    else ⟨.cons turn.live heard.later, heard.cx, heard.report⟩

def evaluateAt :
    (trees : Forest H) → Nat → LiveForest H trees → Context H → Turn H (LiveForest H trees)
  | .nil, _, .nil, cx => ⟨.nil, cx, []⟩
  | .cons tree _, 0, .cons head tail, cx =>
    let turn := evaluate tree head cx
    ⟨.cons turn.live tail, turn.cx, turn.report⟩
  | .cons _ trees, index + 1, .cons head tail, cx =>
    let turn := evaluateAt trees index tail cx
    ⟨.cons head turn.live, turn.cx, turn.report⟩

end

theorem evaluate_of_running {tree : Tree H} (live : Live H tree) (cx : Context H)
    (running : live.isRunning) : evaluate tree live cx = ⟨live, cx, []⟩ := by
  cases live <;> rw [evaluate] <;> exact if_pos running

end ReactiveTree
