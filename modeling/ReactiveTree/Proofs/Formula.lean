import ReactiveTree.Proofs.Repose

/-!
Trees that never wait. What a tree of conditions, selectors, sequencers, weighted choices and relays
makes of its conditions is a boolean formula, which is decided from left to right and no further
than needed: a selector is a disjunction, a sequencer a conjunction, an inverter a negation, and a
weighted choice is the part that one sample picks.

The formula of a tree is read off its state, since the conditions in it change from call to call. It
is decided over what conditions see, a scene and a sampler; states of nodes and tasks play no part.
-/

namespace ReactiveTree

variable {H : Host} {σ φ : Type}

mutual

inductive Formula (H : Host) where
  | atom (node : Nat) (unit : H.Condition)
  | scope (body : Formula H)
  | negation (body : Formula H)
  | any (parts : Formulas H)
  | all (parts : Formulas H)
  | pick (bounds : List Single) (parts : Formulas H)

inductive Formulas (H : Host) where
  | nil
  | cons (head : Formula H) (tail : Formulas H)

end

structure Bench (H : Host) where
  scene : Scene H.Target
  sampler : H.Sampler
  calls : List (Nat × UnitCall)

/-- A formula that was decided, with what is left of it and of the bench. `steps` counts how often
the node that stands for the formula says that it runs before it gives the verdict. -/
structure Decision (H : Host) (φ : Type) where
  holds : Bool
  steps : Nat
  rest : φ
  bench : Bench H

mutual

def Formula.decide : Formula H → Bench H → Decision H (Formula H)
  | .atom node unit, bench =>
    let reply := H.poll unit bench.scene
    -- a fault counts as false
    ⟨reply.answer = some true, 0, .atom node reply.unit, { bench with
      scene := reply.scene, calls := bench.calls ++ [(node, .poll reply.answer)] }⟩
  | .scope body, bench =>
    let decided := body.decide bench
    ⟨decided.holds, 0, .scope decided.rest, decided.bench⟩
  | .negation body, bench =>
    let decided := body.decide bench
    ⟨!decided.holds, decided.steps, .negation decided.rest, decided.bench⟩
  | .any parts, bench =>
    let decided := parts.decideAny bench
    ⟨decided.holds, decided.steps, .any decided.rest, decided.bench⟩
  | .all parts, bench =>
    let decided := parts.decideAll bench
    ⟨decided.holds, decided.steps, .all decided.rest, decided.bench⟩
  | .pick bounds parts, bench =>
    let drawn := H.sample bench.sampler
    let decided := parts.decideAt (Weights.pick bounds drawn.1) { bench with sampler := drawn.2 }
    ⟨decided.holds, decided.steps, .pick bounds decided.rest, decided.bench⟩

def Formulas.decideAny : Formulas H → Bench H → Decision H (Formulas H)
  | .nil, bench => ⟨false, 0, .nil, bench⟩
  | .cons head tail, bench =>
    let first := head.decide bench
    if first.holds then ⟨true, first.steps, .cons first.rest tail, first.bench⟩
    else
      let others := tail.decideAny first.bench
      ⟨others.holds, first.steps + others.steps, .cons first.rest others.rest, others.bench⟩

def Formulas.decideAll : Formulas H → Bench H → Decision H (Formulas H)
  | .nil, bench => ⟨true, 0, .nil, bench⟩
  | .cons head tail, bench =>
    let first := head.decide bench
    if first.holds then
      let others := tail.decideAll first.bench
      ⟨others.holds, first.steps + 1 + others.steps, .cons first.rest others.rest, others.bench⟩
    else ⟨false, first.steps, .cons first.rest tail, first.bench⟩

def Formulas.decideAt : Formulas H → Nat → Bench H → Decision H (Formulas H)
  | .nil, _, bench => ⟨false, 0, .nil, bench⟩
  | .cons head tail, 0, bench =>
    let decided := head.decide bench
    ⟨decided.holds, decided.steps, .cons decided.rest tail, decided.bench⟩
  | .cons head tail, index + 1, bench =>
    let decided := tail.decideAt index bench
    ⟨decided.holds, decided.steps, .cons head decided.rest, decided.bench⟩

end

def Relay.formula : Relay → Formula H → Formula H
  | .root, body | .function, body => .scope body
  | .inverse, body => .negation body

def Order.formula : Order → Formulas H → Formula H
  | .selector, parts => .any parts
  | .sequencer, parts => .all parts

def Order.decide : Order → Formulas H → Bench H → Decision H (Formulas H)
  | .selector => Formulas.decideAny
  | .sequencer => Formulas.decideAll

mutual

/-- The formula that a tree that never waits stands for, with its conditions as they are now. Nodes
of other kinds stand for nothing. -/
def Live.formula : {tree : Tree H} → Live H tree → Formula H
  | .relay role _ _, .relay _ kid => role.formula kid.formula
  | .ordered order _ _, .ordered _ kids => order.formula kids.formulas
  | .weighted _ bounds _, .weighted _ _ kids => .pick bounds kids.formulas
  | .condition label _, .condition _ unit => .atom label.id unit
  | _, _ => .all .nil

def LiveForest.formulas : {trees : Forest H} → LiveForest H trees → Formulas H
  | _, .nil => .nil
  | _, .cons head tail => .cons head.formula tail.formulas

end

/-- The kinds of node that end within the call that activates them, if their children do. -/
def NodeKind.isSynchronous : NodeKind → Bool
  | .root | .functionNode | .selector | .sequencer | .inverseDecorator | .weightedRandomSelector
  | .conditionNode => true
  | .simpleParallel | .repeater | .loop | .loopConditionNode | .actionNode => false

def Tree.Synchronous (tree : Tree H) : Prop :=
  ∀ node ∈ tree.nodes, node.kind.isSynchronous

def Forest.Synchronous (trees : Forest H) : Prop :=
  ∀ node ∈ trees.nodes, node.kind.isSynchronous

theorem synchronous_forest_cons {tree : Tree H} {trees : Forest H} :
    (Forest.cons tree trees).Synchronous ↔ tree.Synchronous ∧ trees.Synchronous :=
  List.forall_mem_append

section Bench

def Event.call? : Event → Option (Nat × UnitCall)
  | .called node call => some (node, call)
  | .changed _ => none

def Context.bench (cx : Context H) : Bench H :=
  ⟨cx.scene, cx.sampler, cx.events.filterMap Event.call?⟩

variable (cx : Context H) (label : Label)

@[simp] theorem bench_announce (kind : NodeKind) (status : Status) :
    (cx.announce label kind status).bench = cx.bench := by
  simp [Context.bench, Context.announce, Context.events, Context.record, Event.call?]

@[simp] theorem bench_announceAll (kind : NodeKind) (report : Report) :
    (cx.announceAll label kind report).bench = cx.bench := by
  induction report generalizing cx with
  | nil => rfl
  | cons status report ih => exact (ih _).trans (bench_announce cx label kind status)

@[simp] theorem bench_settle (kind : NodeKind) (status : Status) :
    (cx.settle label kind status).bench = cx.bench := by
  unfold Context.settle
  split
  · rfl
  · exact bench_announce cx label kind .waiting

theorem bench_poll (unit : H.Condition) :
    (cx.poll label unit).cx.bench = { cx.bench with
      scene := (H.poll unit cx.scene).scene
      calls := cx.bench.calls ++ [(label.id, .poll (H.poll unit cx.scene).answer)] } := by
  simp [Context.bench, Context.poll, Context.events, Context.record, Event.call?]

theorem bench_draw : cx.draw.2.bench = { cx.bench with sampler := (H.sample cx.sampler).2 } := rfl

end Bench

end ReactiveTree
