import ReactiveTree.Context

/-!
Stopping a tree. Every node gives up its handles, its descendants are stopped in order, and the
node waits again. An action that was running is told to stop, and what it answers is ignored.
-/

namespace ReactiveTree

variable {H : Host}

def haltAction (label : Label) (status : Status) (unit : H.Action) (cx : Context H) :
    Stopped H H.Action :=
  if status.isRunning then
    let called := cx.act label .stop unit
    ⟨called.unit, called.cx⟩
  else ⟨unit, cx⟩

@[simp] theorem haltAction_agenda (label : Label) (status : Status) (unit : H.Action)
    (cx : Context H) : (haltAction label status unit cx).cx.agenda = cx.agenda := by
  unfold haltAction
  split <;> rfl

mutual

def stop : (tree : Tree H) → Live H tree → Context H → Stopped H (Live H tree)
  | .relay role label child, .relay status kid, cx =>
    let kid := stop child kid cx
    ⟨.relay .waiting kid.live, kid.cx.settle label role.kind status⟩
  | .repeater label child, .repeater status deferred kid, cx =>
    let kid := stop child kid (cx.cancel deferred)
    ⟨.repeater .waiting none kid.live, kid.cx.settle label .repeater status⟩
  | .loop label _ child, .loop status timer kid, cx =>
    let kid := stop child kid (cx.cancel timer)
    ⟨.loop .waiting none kid.live, kid.cx.settle label .loop status⟩
  | .gate label _ _ _ child, .gate status unit timer last kid, cx =>
    let kid := stop child kid (cx.cancel timer)
    ⟨.gate .waiting unit none last kid.live, kid.cx.settle label .loopConditionNode status⟩
  | .ordered order label children, .ordered status kids, cx =>
    let kids := stopAll children kids cx
    ⟨.ordered .waiting kids.live, kids.cx.settle label order.kind status⟩
  | .weighted label _ children, .weighted status _ kids, cx =>
    let kids := stopAll children kids cx
    ⟨.weighted .waiting none kids.live, kids.cx.settle label .weightedRandomSelector status⟩
  | .parallel label main background, .parallel status first second, cx =>
    let first := stop main first cx
    let second := stop background second first.cx
    ⟨.parallel .waiting first.live second.live, second.cx.settle label .simpleParallel status⟩
  | .condition label _, .condition status unit, cx =>
    ⟨.condition .waiting unit, cx.settle label .conditionNode status⟩
  | .action label _, .action status unit task, cx =>
    let halted := haltAction label status unit (cx.cancel task)
    ⟨.action .waiting halted.live none, halted.cx.settle label .actionNode status⟩

def stopAll : (trees : Forest H) → LiveForest H trees → Context H → Stopped H (LiveForest H trees)
  | .nil, .nil, cx => ⟨.nil, cx⟩
  | .cons tree trees, .cons head tail, cx =>
    let head := stop tree head cx
    let tail := stopAll trees tail head.cx
    ⟨.cons head.live tail.live, tail.cx⟩

end

end ReactiveTree
