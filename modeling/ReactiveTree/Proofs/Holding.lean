import ReactiveTree.Proofs.Ledger
import ReactiveTree.Proofs.Numbering
import ReactiveTree.Session

/-!
Which tasks the nodes of a tree hold. Activating and stopping a tree keep the books balanced:
whatever a node gives up it cancels, and whatever it registers it holds. Resuming does so too, with
one exception. A repeater whose child ends registers the next activation of the child without
cancelling the one it may hold already, and a task that is overwritten in this way has lost its
holder.
-/

namespace ReactiveTree

variable {H : Host} {σ : Type}

mutual

def Live.handles : {tree : Tree H} → Live H tree → List Handle
  | _, .relay _ kid => kid.handles
  | .repeater label _, .repeater _ deferred kid => label.holds false deferred ++ kid.handles
  | .loop label _ _, .loop _ timer kid => label.holds true timer ++ kid.handles
  | .gate label _ _ _ _, .gate _ _ timer _ kid => label.holds true timer ++ kid.handles
  | _, .ordered _ kids => kids.handles
  | _, .weighted _ _ kids => kids.handles
  | _, .parallel _ first second => first.handles ++ second.handles
  | _, .condition _ _ => []
  | .action label _, .action _ _ task => label.holds false task

def LiveForest.handles : {trees : Forest H} → LiveForest H trees → List Handle
  | _, .nil => []
  | _, .cons head tail => head.handles ++ tail.handles

end

mutual

theorem initial_handles : (tree : Tree H) → (Live.initial tree).handles = []
  | .relay _ _ child | .repeater _ child | .loop _ _ child | .gate _ _ _ _ child => by
    simp [Live.initial, Live.handles, Label.holds, initial_handles child]
  | .ordered _ _ children | .weighted _ _ children => by
    simp [Live.initial, Live.handles, initial_handles_all children]
  | .parallel _ main background => by
    simp [Live.initial, Live.handles, initial_handles main, initial_handles background]
  | .condition _ _ => rfl
  | .action _ _ => rfl

theorem initial_handles_all : (trees : Forest H) → (LiveForest.initial trees).handles = []
  | .nil => rfl
  | .cons tree trees => by
    simp [LiveForest.initial, LiveForest.handles, initial_handles tree, initial_handles_all trees]

end

mutual

theorem stop_handles : (tree : Tree H) → (live : Live H tree) → (cx : Context H) →
    (stop tree live cx).live.handles = []
  | .relay _ _ child, .relay _ kid, cx => by
    simp [stop, Live.handles, stop_handles child]
  | .repeater _ child, .repeater _ _ kid, cx => by
    simp [stop, Live.handles, Label.holds, stop_handles child]
  | .loop _ _ child, .loop _ _ kid, cx => by
    simp [stop, Live.handles, Label.holds, stop_handles child]
  | .gate _ _ _ _ child, .gate _ _ _ _ kid, cx => by
    simp [stop, Live.handles, Label.holds, stop_handles child]
  | .ordered _ _ children, .ordered _ kids, cx => by
    simp [stop, Live.handles, stopAll_handles children]
  | .weighted _ _ children, .weighted _ _ kids, cx => by
    simp [stop, Live.handles, stopAll_handles children]
  | .parallel _ main background, .parallel _ first second, cx => by
    simp [stop, Live.handles, stop_handles main, stop_handles background]
  | .condition _ _, .condition _ _, _ => rfl
  | .action _ _, .action _ _ _, _ => rfl

theorem stopAll_handles : (trees : Forest H) → (lives : LiveForest H trees) → (cx : Context H) →
    (stopAll trees lives cx).live.handles = []
  | .nil, .nil, _ => rfl
  | .cons tree trees, .cons head tail, cx => by
    simp [stopAll, LiveForest.handles, stop_handles tree, stopAll_handles trees]

end

section Balance

variable {due : List Wake} {lost : List Handle}

mutual

theorem stop_balanced : (tree : Tree H) → (live : Live H tree) → (cx : Context H) →
    {held : List Handle} → Balanced due (live.handles ++ held) lost cx.agenda →
    Balanced due held lost (stop tree live cx).cx.agenda
  | .relay role label child, .relay status kid, cx, held, balanced => by
    have halted := stop_balanced child kid cx balanced
    simpa only [stop, Context.settle_agenda] using halted
  | .repeater label child, .repeater status deferred kid, cx, held, balanced => by
    rw [Live.handles, List.append_assoc] at balanced
    have halted := stop_balanced child kid _ (balanced.cancel_held label false deferred)
    simpa only [stop, Context.settle_agenda] using halted
  | .loop label _ child, .loop status timer kid, cx, held, balanced => by
    rw [Live.handles, List.append_assoc] at balanced
    have halted := stop_balanced child kid _ (balanced.cancel_held label true timer)
    simpa only [stop, Context.settle_agenda] using halted
  | .gate label _ _ _ child, .gate status unit timer last kid, cx, held, balanced => by
    rw [Live.handles, List.append_assoc] at balanced
    have halted := stop_balanced child kid _ (balanced.cancel_held label true timer)
    simpa only [stop, Context.settle_agenda] using halted
  | .ordered order label children, .ordered status kids, cx, held, balanced => by
    have halted := stopAll_balanced children kids cx balanced
    simpa only [stop, Context.settle_agenda] using halted
  | .weighted label _ children, .weighted status selected kids, cx, held, balanced => by
    have halted := stopAll_balanced children kids cx balanced
    simpa only [stop, Context.settle_agenda] using halted
  | .parallel label main background, .parallel status first second, cx, held, balanced => by
    rw [Live.handles, List.append_assoc] at balanced
    have halted := stop_balanced main first cx balanced
    have both := stop_balanced background second _ halted
    simpa only [stop, Context.settle_agenda] using both
  | .condition label _, .condition status unit, cx, held, balanced => by
    simpa only [stop, Context.settle_agenda, Live.handles, List.nil_append] using balanced
  | .action label _, .action status unit task, cx, held, balanced => by
    have given := balanced.cancel_held label false task
    simpa only [stop, Context.settle_agenda, haltAction_agenda] using given

theorem stopAll_balanced : (trees : Forest H) → (lives : LiveForest H trees) → (cx : Context H) →
    {held : List Handle} → Balanced due (lives.handles ++ held) lost cx.agenda →
    Balanced due held lost (stopAll trees lives cx).cx.agenda
  | .nil, .nil, _, _, balanced => balanced
  | .cons tree trees, .cons head tail, cx, held, balanced => by
    rw [LiveForest.handles, List.append_assoc] at balanced
    exact stopAll_balanced trees tail _ (stop_balanced tree head cx balanced)

end

theorem stop_keeps {held : List Handle} (tree : Tree H) (live : Live H tree) (cx : Context H)
    (balanced : Balanced due (live.handles ++ held) lost cx.agenda) :
    Balanced due ((stop tree live cx).live.handles ++ held) lost (stop tree live cx).cx.agenda := by
  rw [stop_handles]
  exact stop_balanced tree live cx balanced

theorem stopAll_keeps {held : List Handle} (trees : Forest H) (lives : LiveForest H trees)
    (cx : Context H) (balanced : Balanced due (lives.handles ++ held) lost cx.agenda) :
    Balanced due ((stopAll trees lives cx).live.handles ++ held) lost
      (stopAll trees lives cx).cx.agenda := by
  rw [stopAll_handles]
  exact stopAll_balanced trees lives cx balanced

mutual

theorem evaluate_balanced : (tree : Tree H) → (live : Live H tree) → (cx : Context H) →
    {held : List Handle} → Balanced due (live.handles ++ held) lost cx.agenda →
    Balanced due ((evaluate tree live cx).live.handles ++ held) lost (evaluate tree live cx).cx.agenda
  | .relay role label child, .relay status kid, cx, held, balanced => by
    rw [evaluate]
    split
    · exact balanced
    · have active := evaluate_balanced child kid (cx.announce label role.kind .running) balanced
      simpa only [Live.handles, Context.announceAll_agenda] using active
  | .repeater label child, .repeater status deferred kid, cx, held, balanced => by
    rw [evaluate]
    split
    · exact balanced
    · rw [Live.handles, List.append_assoc] at balanced
      have active := repeatChild_balanced Live.handles label none
        (fun kid cx => evaluate_balanced child kid cx) kid
        ((cx.cancel deferred).announce label .repeater .running)
        (balanced.cancel_held label false deferred)
      simpa only [Live.handles, List.append_assoc, overwritten_none, List.nil_append] using active
  | .loop label period child, .loop status timer kid, cx, held, balanced => by
    rw [evaluate]
    split
    · exact balanced
    · rw [Live.handles, List.append_assoc] at balanced
      have active := cycleChild_balanced Live.handles
        (fun kid cx => evaluate_balanced child kid cx) label period kid (cx.cancel timer)
        (balanced.cancel_held label true timer)
      simpa only [Live.handles, List.append_assoc] using active
  | .gate label bound mode period child, .gate status unit timer last kid, cx, held, balanced => by
    rw [evaluate]
    split
    · exact balanced
    · rw [Live.handles, List.append_assoc] at balanced
      have polled := pollGate_balanced Live.handles
        (fun kid cx => evaluate_balanced child kid cx) (fun kid cx => stop_keeps child kid cx)
        label mode period .running unit .running kid
        ((cx.cancel timer).announce label .loopConditionNode .running)
        (balanced.cancel_held label true timer)
      simpa only [Live.handles, List.append_assoc] using polled
  | .ordered order label children, .ordered status kids, cx, held, balanced => by
    rw [evaluate]
    split
    · exact balanced
    · exact runFrom_balanced order label children kids (cx.announce label order.kind .running)
        balanced
  | .weighted label bounds children, .weighted status selected kids, cx, held, balanced => by
    rw [evaluate]
    split
    · exact balanced
    · have active := evaluateAt_balanced children
        (Weights.pick bounds (cx.announce label .weightedRandomSelector .running).draw.1) kids
        (cx.announce label .weightedRandomSelector .running).draw.2 balanced
      simpa only [Live.handles, Context.announceAll_agenda] using active
  | .parallel label main background, .parallel status first second, cx, held, balanced => by
    rw [evaluate]
    split
    · exact balanced
    · rw [Live.handles, List.append_assoc] at balanced
      -- each child is told with the handles of the other one set aside
      have active := (evaluate_balanced main first (cx.announce label .simpleParallel .running)
        balanced).swap
      have beside := accompany_keeps (fun kid agenda => Balanced due (kid.handles ++ _) lost agenda)
        (fun kid cx => evaluate_balanced background kid cx)
        (fun kid cx => stop_keeps background kid cx) label
        (evaluate main first (cx.announce label .simpleParallel .running)).report second _ active
      dsimp only
      split
      · rw [Live.handles, List.append_assoc]
        exact (evaluate_balanced background _ _ beside).swap
      · rw [Live.handles, List.append_assoc]
        exact beside.swap
  | .condition label bound, .condition status unit, cx, held, balanced => by
    rw [evaluate]
    split
    · exact balanced
    · simpa only [Live.handles, runCondition_agenda] using balanced
  | .action label bound, .action status unit task, cx, held, balanced => by
    rw [evaluate]
    split
    · exact balanced
    · exact startAction_balanced label unit task cx balanced

theorem runFrom_balanced (order : Order) (label : Label) : (trees : Forest H) →
    (lives : LiveForest H trees) → (cx : Context H) → {held : List Handle} →
    Balanced due (lives.handles ++ held) lost cx.agenda →
    Balanced due ((runFrom order label trees lives cx).live.handles ++ held) lost
      (runFrom order label trees lives cx).cx.agenda
  | .nil, .nil, _, _, balanced => balanced
  | .cons tree trees, .cons head tail, cx, held, balanced => by
    rw [LiveForest.handles, List.append_assoc] at balanced
    have active := (evaluate_balanced tree head cx balanced).swap
    have heard := react_keeps (fun later agenda => Balanced due (later.handles ++ _) lost agenda)
      (fun later cx => stopAll_keeps trees later cx) order label (evaluate tree head cx).report
      tail _ active
    rw [runFrom]
    dsimp only
    split
    · rw [LiveForest.handles, List.append_assoc]
      exact (runFrom_balanced order label trees _ _ heard).swap
    · rw [LiveForest.handles, List.append_assoc]
      exact heard.swap

theorem evaluateAt_balanced : (trees : Forest H) → (index : Nat) → (lives : LiveForest H trees) →
    (cx : Context H) → {held : List Handle} → Balanced due (lives.handles ++ held) lost cx.agenda →
    Balanced due ((evaluateAt trees index lives cx).live.handles ++ held) lost
      (evaluateAt trees index lives cx).cx.agenda
  | .nil, _, .nil, _, _, balanced => balanced
  | .cons tree trees, 0, .cons head tail, cx, held, balanced => by
    rw [LiveForest.handles, List.append_assoc] at balanced
    rw [evaluateAt, LiveForest.handles, List.append_assoc]
    exact evaluate_balanced tree head cx balanced
  | .cons tree trees, index + 1, .cons head tail, cx, held, balanced => by
    rw [LiveForest.handles, List.append_assoc] at balanced
    rw [evaluateAt, LiveForest.handles, List.append_assoc]
    exact (evaluateAt_balanced trees index tail cx balanced.swap).swap

end

end Balance

theorem holds_node {label : Label} {once : Bool} {task : Option Nat} {handle : Handle}
    (member : handle ∈ label.holds once task) : handle.node = label.id := by
  cases task with
  | none => cases member
  | some task =>
    cases List.mem_singleton.mp member
    rfl

theorem holds_append_node {label : Label} {once : Bool} {task : Option Nat} {kid : List Handle}
    {ids : List Nat} (below : ∀ handle ∈ kid, handle.node ∈ ids) :
    ∀ handle ∈ label.holds once task ++ kid, handle.node ∈ label.id :: ids := by
  intro handle member
  rcases List.mem_append.mp member with own | inside
  · rw [holds_node own]
    exact List.mem_cons_self
  · exact List.mem_cons_of_mem _ (below handle inside)

mutual

theorem handles_node : {tree : Tree H} → (live : Live H tree) → ∀ handle ∈ live.handles,
    handle.node ∈ tree.labels.map Label.id
  | _, .relay _ kid, handle, member => List.mem_cons_of_mem _ (handles_node kid handle member)
  | _, .repeater _ _ kid, handle, member => holds_append_node (handles_node kid) handle member
  | _, .loop _ _ kid, handle, member => holds_append_node (handles_node kid) handle member
  | _, .gate _ _ _ _ kid, handle, member => holds_append_node (handles_node kid) handle member
  | _, .ordered _ kids, handle, member =>
    List.mem_cons_of_mem _ (handles_all_node kids handle member)
  | _, .weighted _ _ kids, handle, member =>
    List.mem_cons_of_mem _ (handles_all_node kids handle member)
  | _, .parallel _ first second, handle, member => by
    simp only [Tree.labels, List.map_cons, List.map_append]
    apply List.mem_cons_of_mem
    rcases List.mem_append.mp member with main | beside
    · exact List.mem_append_left _ (handles_node first handle main)
    · exact List.mem_append_right _ (handles_node second handle beside)
  | _, .condition _ _, handle, member => nomatch member
  | _, .action _ _ _, handle, member => by
    rw [holds_node member]
    exact List.mem_singleton_self _

theorem handles_all_node : {trees : Forest H} → (lives : LiveForest H trees) →
    ∀ handle ∈ lives.handles, handle.node ∈ trees.labels.map Label.id
  | _, .nil, handle, member => nomatch member
  | _, .cons head tail, handle, member => by
    simp only [Forest.labels, List.map_append]
    rcases List.mem_append.mp member with inside | after
    · exact List.mem_append_left _ (handles_node head handle inside)
    · exact List.mem_append_right _ (handles_all_node tail handle after)

end

end ReactiveTree
