import ReactiveTree.Proofs.Formula

/-!
A tree that never waits decides its formula. It ends within the call that activates it, having
polled the conditions and drawn the samples that the formula asks for, in its order, and nothing of
it runs afterwards.
-/

namespace ReactiveTree

variable {H : Host} {σ φ : Type}

/-- A part of a tree decided its formula: it reports the steps and the verdict, asks for no task,
and nothing of it runs. -/
structure Turn.Decides (formula : σ → φ) (idle : σ → Prop) (agenda : Agenda)
    (decision : Decision H φ) (turn : Turn H σ) : Prop where
  report : turn.report =
    List.replicate decision.steps .running ++ [Status.ofBool decision.holds]
  formula : formula turn.live = decision.rest
  bench : turn.cx.bench = decision.bench
  agenda : turn.cx.agenda = agenda
  idle : idle turn.live

section Rules

theorem ofBool_ne_running (holds : Bool) : Status.ofBool holds ≠ .running := by
  cases holds <;> nofun

theorem last_verdict (steps : Nat) (holds : Bool) (prior : Status) :
    (List.replicate steps Status.running ++ [Status.ofBool holds]).getLastD prior ≠ .running := by
  rw [List.getLastD_concat]
  exact ofBool_ne_running holds

theorem verdict_reported (steps : Nat) (holds : Bool) :
    (List.replicate steps Status.running ++ [Status.ofBool holds]).filter Status.isReported =
      List.replicate steps .running ++ [Status.ofBool holds] :=
  Report.Orderly.reported ((Report.orderly_iff _).mpr ⟨steps, some holds, rfl⟩)

/-- What an ordered node says when a child gives its verdict, and whether it goes on. -/
def Order.answer : Order → Bool → Report × Bool
  | .selector, true => ([.success], false)
  | .selector, false => ([], true)
  | .sequencer, true => ([.running], true)
  | .sequencer, false => ([.failure], false)

theorem Order.answer_goes (order : Order) {holds : Bool} (goes : (order.answer holds).2 = true) :
    (order.answer holds).1 = List.replicate (order.answer holds).1.length .running := by
  cases order <;> cases holds <;> first | rfl | cases goes

theorem Order.answer_stays (order : Order) {holds : Bool}
    (stays : ¬ (order.answer holds).2 = true) :
    (order.answer holds).1 = [Status.ofBool holds] := by
  cases order <;> cases holds <;> first | rfl | exact absurd rfl stays

theorem Order.decide_cons (order : Order) (head : Formula H) (tail : Formulas H)
    (bench : Bench H) : order.decide (.cons head tail) bench =
      let first := head.decide bench
      let answer := order.answer first.holds
      if answer.2 then
        let others := order.decide tail first.bench
        ⟨others.holds, first.steps + answer.1.length + others.steps,
          .cons first.rest others.rest, others.bench⟩
      else ⟨first.holds, first.steps, .cons first.rest tail, first.bench⟩ := by
  cases order with
  | selector =>
    simp only [Order.decide, Formulas.decideAny]
    cases (head.decide bench).holds <;> rfl
  | sequencer =>
    simp only [Order.decide, Formulas.decideAll]
    cases (head.decide bench).holds <;> rfl

theorem react_verdict (calm : σ → Context H → Prop) {halt : σ → Context H → Stopped H σ}
    {label : Label} (order : Order)
    (halts : ∀ later cx, calm later cx → calm (halt later cx).live (halt later cx).cx)
    (tells : ∀ later cx status, calm later cx → calm later (cx.announce label order.kind status))
    (steps : Nat) (holds : Bool) (later : σ) (cx : Context H) (kept : calm later cx) :
    let heard := order.react label halt
      (List.replicate steps .running ++ [Status.ofBool holds]) later cx
    heard.report = List.replicate steps .running ++ (order.answer holds).1 ∧
      heard.advances = (order.answer holds).2 ∧ calm heard.later heard.cx := by
  induction steps generalizing later cx with
  | zero =>
    cases order with
    | selector =>
      cases holds with
      | true => exact ⟨rfl, rfl, tells _ _ _ (halts _ _ kept)⟩
      | false => exact ⟨rfl, rfl, kept⟩
    | sequencer =>
      cases holds with
      | true => exact ⟨rfl, rfl, tells _ _ _ kept⟩
      | false => exact ⟨rfl, rfl, tells _ _ _ (halts _ _ kept)⟩
  | succ steps ih =>
    rw [List.replicate_succ, List.cons_append]
    cases order with
    | selector =>
      obtain ⟨said, goes, calms⟩ := ih _ _ (tells _ _ .running (halts _ _ kept))
      exact ⟨congrArg (_ :: ·) said, goes, calms⟩
    | sequencer =>
      obtain ⟨said, goes, calms⟩ := ih _ _ (tells _ _ .running kept)
      exact ⟨congrArg (_ :: ·) said, goes, calms⟩

theorem runCondition_decides (label : Label) (unit : H.Condition) (cx : Context H) :
    let ran := runCondition label unit cx
    let decision := (Formula.atom label.id unit).decide cx.bench
    ran.answer.2 = List.replicate decision.steps .running ++ [Status.ofBool decision.holds] ∧
      Formula.atom label.id ran.unit = decision.rest ∧ ran.cx.bench = decision.bench ∧
      ran.answer.1 ≠ .running := by
  have polled : ((cx.announce label .conditionNode .running).poll label unit).cx.bench =
      ((Formula.atom label.id unit).decide cx.bench).bench := by
    rw [bench_poll, bench_announce]
    rfl
  -- the verdict of the formula is the answer of the poll, and a fault is none
  have verdict : ((Formula.atom label.id unit).decide cx.bench).holds =
      decide (((cx.announce label .conditionNode .running).poll label unit).answer = some true) :=
    rfl
  unfold runCondition
  dsimp only
  split
  · rename_i holds answer
    refine ⟨?_, rfl, (bench_announce _ _ _ _).trans polled, ofBool_ne_running holds⟩
    rw [verdict, answer]
    cases holds <;> rfl
  · rename_i answer
    refine ⟨?_, rfl, (bench_announce _ _ _ _).trans polled, nofun⟩
    rw [verdict, answer]
    rfl

end Rules

section Stopping

mutual

theorem stop_synchronous : (tree : Tree H) → tree.Synchronous → (live : Live H tree) →
    (cx : Context H) → (stop tree live cx).live.formula = live.formula ∧
      (stop tree live cx).cx.bench = cx.bench ∧ (stop tree live cx).cx.agenda = cx.agenda
  | .relay role label child, synchronous, .relay status kid, cx => by
    obtain ⟨same, bench, agenda⟩ :=
      stop_synchronous child (List.forall_mem_cons.mp synchronous).2 kid cx
    simp [stop, Live.formula, same, bench, agenda]
  | .ordered order label children, synchronous, .ordered status kids, cx => by
    obtain ⟨same, bench, agenda⟩ :=
      stopAll_synchronous children (List.forall_mem_cons.mp synchronous).2 kids cx
    simp [stop, Live.formula, same, bench, agenda]
  | .weighted label bounds children, synchronous, .weighted status selected kids, cx => by
    obtain ⟨same, bench, agenda⟩ :=
      stopAll_synchronous children (List.forall_mem_cons.mp synchronous).2 kids cx
    simp [stop, Live.formula, same, bench, agenda]
  | .condition label bound, _, .condition status unit, cx => by simp [stop, Live.formula]
  | .repeater _ _, synchronous, _, _ | .loop _ _ _, synchronous, _, _
  | .gate _ _ _ _ _, synchronous, _, _ | .parallel _ _ _, synchronous, _, _
  | .action _ _, synchronous, _, _ => nomatch synchronous _ List.mem_cons_self

theorem stopAll_synchronous : (trees : Forest H) → trees.Synchronous →
    (lives : LiveForest H trees) → (cx : Context H) →
    (stopAll trees lives cx).live.formulas = lives.formulas ∧
      (stopAll trees lives cx).cx.bench = cx.bench ∧ (stopAll trees lives cx).cx.agenda = cx.agenda
  | .nil, _, .nil, _ => ⟨rfl, rfl, rfl⟩
  | .cons tree trees, synchronous, .cons head tail, cx => by
    obtain ⟨first, others⟩ := synchronous_forest_cons.mp synchronous
    obtain ⟨same, bench, agenda⟩ := stop_synchronous tree first head cx
    obtain ⟨same', bench', agenda'⟩ :=
      stopAll_synchronous trees others tail (stop tree head cx).cx
    simp [stopAll, LiveForest.formulas, same, same', bench, bench', agenda, agenda']

end

end Stopping

section Activating

variable {cx : Context H}

theorem idle_of_decided {tree : Tree H} {live : Live H tree} {below : List (Part H)}
    (parts : live.parts = ⟨tree, live⟩ :: below) {steps : Nat} {holds : Bool}
    (last : live.status = (List.replicate steps Status.running ++
      [Status.ofBool holds]).getLastD .running)
    (idle : ∀ part ∈ below, part.live.status ≠ .running) : live.Idle :=
  (idle_cons parts).mpr ⟨last ▸ last_verdict steps holds .running, idle⟩

theorem hand_decided (role : Relay) (body : Formula H) (bench : Bench H) :
    let inner := body.decide bench
    let outer := (role.formula body).decide bench
    role.hand (List.replicate inner.steps .running ++ [Status.ofBool inner.holds]) =
        List.replicate outer.steps .running ++ [Status.ofBool outer.holds] ∧
      outer.rest = role.formula inner.rest ∧ outer.bench = inner.bench := by
  have silent : (List.replicate (body.decide bench).steps Status.running).filter
      Status.isTerminal = [] := by
    rw [List.filter_replicate]
    rfl
  cases role with
  | root | function =>
    refine ⟨?_, rfl, rfl⟩
    simp only [Relay.hand, Relay.formula, Formula.decide]
    rw [show Relay.passes _ = Status.isTerminal from rfl, List.filter_append, silent]
    cases (body.decide bench).holds <;> rfl
  | inverse =>
    refine ⟨?_, rfl, rfl⟩
    simp only [Relay.hand, Relay.formula, Formula.decide]
    rw [show Relay.passes .inverse = Status.isReported from rfl, verdict_reported,
      List.map_append, List.map_replicate]
    cases (body.decide bench).holds <;> rfl

mutual

theorem evaluate_decides : (tree : Tree H) → tree.Synchronous → tree.Weighed →
    (live : Live H tree) → (cx : Context H) → live.Idle →
    (evaluate tree live cx).Decides Live.formula Live.Idle cx.agenda (live.formula.decide cx.bench)
  | .relay role label child, synchronous, weighed, .relay status kid, cx, idle => by
    have still : status ≠ .running := idle.status_ne
    have below := ((idle_cons rfl).mp idle).2
    have active := evaluate_decides child (List.forall_mem_cons.mp synchronous).2 weighed kid
      (cx.announce label role.kind .running) below
    rw [bench_announce] at active
    obtain ⟨said, left, bench⟩ := hand_decided role kid.formula cx.bench
    rw [evaluate, if_neg (not_isRunning still)]
    dsimp only
    rw [active.report, said]
    exact {
      report := rfl
      formula := (congrArg role.formula active.formula).trans left.symm
      bench := (bench_announceAll _ _ _ _).trans (active.bench.trans bench.symm)
      agenda := (Context.announceAll_agenda _ _ _ _).trans active.agenda
      idle := idle_of_decided rfl rfl active.idle }
  | .ordered order label children, synchronous, weighed, .ordered status kids, cx, idle => by
    have still : status ≠ .running := idle.status_ne
    have below := ((idle_cons rfl).mp idle).2
    have active := runFrom_decides order label children (List.forall_mem_cons.mp synchronous).2
      weighed kids (cx.announce label order.kind .running) below
    rw [bench_announce] at active
    rw [evaluate, if_neg (not_isRunning still)]
    dsimp only
    rw [active.report]
    cases order <;> exact {
      report := rfl
      formula := congrArg (Order.formula _) active.formula
      bench := active.bench
      agenda := active.agenda
      idle := idle_of_decided rfl rfl active.idle }
  | .weighted label bounds children, synchronous, weighed, .weighted status selected kids, cx,
      idle => by
    have still : status ≠ .running := idle.status_ne
    have below := ((idle_cons rfl).mp idle).2
    obtain ⟨fits, filled, weighedBelow⟩ := weighed
    let drawn := (cx.announce label .weightedRandomSelector .running).draw
    have inside : Weights.pick bounds drawn.1 < children.length :=
      fits ▸ Weights.pick_lt filled drawn.1
    have active := evaluateAt_decides children (List.forall_mem_cons.mp synchronous).2
      weighedBelow (Weights.pick bounds drawn.1) inside kids drawn.2 below
    rw [bench_draw, bench_announce] at active
    rw [evaluate, if_neg (not_isRunning still)]
    dsimp only
    rw [active.report, verdict_reported]
    exact {
      report := rfl
      formula := congrArg (Formula.pick bounds) active.formula
      bench := (bench_announceAll _ _ _ _).trans active.bench
      agenda := (Context.announceAll_agenda _ _ _ _).trans active.agenda
      idle := idle_of_decided rfl rfl active.idle }
  | .condition label bound, _, _, .condition status unit, cx, idle => by
    obtain ⟨said, left, bench, ended⟩ := runCondition_decides label unit cx
    have still : status ≠ .running := idle.status_ne
    rw [evaluate, if_neg (not_isRunning still)]
    exact {
      report := said
      formula := left
      bench := bench
      agenda := runCondition_agenda label unit cx
      idle := (idle_cons rfl).mpr ⟨ended, nofun⟩ }
  | .repeater _ _, synchronous, _, _, _, _ | .loop _ _ _, synchronous, _, _, _, _
  | .gate _ _ _ _ _, synchronous, _, _, _, _ | .parallel _ _ _, synchronous, _, _, _, _
  | .action _ _, synchronous, _, _, _, _ => nomatch synchronous _ List.mem_cons_self

theorem runFrom_decides (order : Order) (label : Label) : (trees : Forest H) →
    trees.Synchronous → trees.Weighed → (lives : LiveForest H trees) → (cx : Context H) →
    lives.Idle → (runFrom order label trees lives cx).Decides LiveForest.formulas LiveForest.Idle
      cx.agenda (order.decide lives.formulas cx.bench)
  | .nil, _, _, .nil, cx, idle => by
    rw [runFrom]
    cases order <;> exact ⟨rfl, rfl, bench_announce _ _ _ _, rfl, idle⟩
  | .cons tree trees, synchronous, weighed, .cons head tail, cx, idle => by
    obtain ⟨first, others⟩ := synchronous_forest_cons.mp synchronous
    obtain ⟨here, beyond⟩ := idle_forest_cons.mp idle
    have active := evaluate_decides tree first weighed.1 head cx here
    -- whether the later children are stopped or left alone, nothing of their formulas changes
    let calm (later : LiveForest H trees) (cx' : Context H) : Prop :=
      later.Idle ∧ later.formulas = tail.formulas ∧
        cx'.bench = (head.formula.decide cx.bench).bench ∧ cx'.agenda = cx.agenda
    have halts (later : LiveForest H trees) (cx' : Context H) (calms : calm later cx') :
        calm (stopAll trees later cx').live (stopAll trees later cx').cx := by
      obtain ⟨same, bench, agenda⟩ := stopAll_synchronous trees others later cx'
      exact ⟨stopAll_idle trees later cx', same.trans calms.2.1, bench.trans calms.2.2.1,
        agenda.trans calms.2.2.2⟩
    have tells (later : LiveForest H trees) (cx' : Context H) (status : Status)
        (calms : calm later cx') : calm later (cx'.announce label order.kind status) :=
      ⟨calms.1, calms.2.1, (bench_announce _ _ _ _).trans calms.2.2.1, calms.2.2.2⟩
    let decision := head.formula.decide cx.bench
    let heard := order.react label (stopAll trees)
      (List.replicate decision.steps .running ++ [Status.ofBool decision.holds]) tail
      (evaluate tree head cx).cx
    obtain ⟨said, goes, rests, same, bench, agenda⟩ := react_verdict calm order halts tells
      decision.steps decision.holds tail (evaluate tree head cx).cx
      ⟨beyond, rfl, active.bench, active.agenda⟩
    rw [runFrom]
    dsimp only
    rw [active.report]
    rw [goes, said, LiveForest.formulas, Order.decide_cons]
    dsimp only
    split
    · rename_i goesOn
      have rest := runFrom_decides order label trees others weighed.2 heard.later heard.cx rests
      rw [same, bench] at rest
      exact {
        report := by
          rw [rest.report, order.answer_goes goesOn, ← List.append_assoc, List.replicate_add,
            List.replicate_add, List.length_replicate]
        formula := congrArg₂ Formulas.cons active.formula rest.formula
        bench := rest.bench
        agenda := rest.agenda.trans agenda
        idle := idle_forest_cons.mpr ⟨active.idle, rest.idle⟩ }
    · rename_i stays
      exact {
        report := by rw [order.answer_stays stays]
        formula := congrArg₂ Formulas.cons active.formula same
        bench := bench
        agenda := agenda
        idle := idle_forest_cons.mpr ⟨active.idle, rests⟩ }

theorem evaluateAt_decides : (trees : Forest H) → trees.Synchronous → trees.Weighed →
    (index : Nat) → index < trees.length → (lives : LiveForest H trees) → (cx : Context H) →
    lives.Idle → (evaluateAt trees index lives cx).Decides LiveForest.formulas LiveForest.Idle
      cx.agenda (lives.formulas.decideAt index cx.bench)
  | .cons tree trees, synchronous, weighed, 0, _, .cons head tail, cx, idle => by
    obtain ⟨here, beyond⟩ := idle_forest_cons.mp idle
    have active := evaluate_decides tree (synchronous_forest_cons.mp synchronous).1 weighed.1 head
      cx here
    exact {
      report := active.report
      formula := congrArg (Formulas.cons · tail.formulas) active.formula
      bench := active.bench
      agenda := active.agenda
      idle := idle_forest_cons.mpr ⟨active.idle, beyond⟩ }
  | .cons tree trees, synchronous, weighed, index + 1, inside, .cons head tail, cx, idle => by
    obtain ⟨here, beyond⟩ := idle_forest_cons.mp idle
    have active := evaluateAt_decides trees (synchronous_forest_cons.mp synchronous).2 weighed.2
      index (Nat.lt_of_succ_lt_succ inside) tail cx beyond
    exact {
      report := active.report
      formula := congrArg (Formulas.cons head.formula ·) active.formula
      bench := active.bench
      agenda := active.agenda
      idle := idle_forest_cons.mpr ⟨here, active.idle⟩ }

end

end Activating

section Runs

mutual

theorem synchronous_handles : {tree : Tree H} → (live : Live H tree) → tree.Synchronous →
    live.handles = []
  | .relay _ _ _, .relay _ kid, synchronous =>
    synchronous_handles kid (List.forall_mem_cons.mp synchronous).2
  | .ordered _ _ _, .ordered _ kids, synchronous =>
    synchronous_handles_all kids (List.forall_mem_cons.mp synchronous).2
  | .weighted _ _ _, .weighted _ _ kids, synchronous =>
    synchronous_handles_all kids (List.forall_mem_cons.mp synchronous).2
  | .condition _ _, .condition _ _, _ => rfl
  | .repeater _ _, _, synchronous | .loop _ _ _, _, synchronous
  | .gate _ _ _ _ _, _, synchronous | .parallel _ _ _, _, synchronous
  | .action _ _, _, synchronous => nomatch synchronous _ List.mem_cons_self

theorem synchronous_handles_all : {trees : Forest H} → (lives : LiveForest H trees) →
    trees.Synchronous → lives.handles = []
  | .nil, .nil, _ => rfl
  | .cons _ _, .cons head tail, synchronous => by
    obtain ⟨first, others⟩ := synchronous_forest_cons.mp synchronous
    rw [LiveForest.handles, synchronous_handles head first, synchronous_handles_all tail others]
    rfl

end

theorem Live.Attended.idle {tree : Tree H} {live : Live H tree} (attended : live.Attended)
    (synchronous : tree.Synchronous) : live.Idle :=
  idle_of_unheld live attended (synchronous_handles live synchronous)

/-- What a command of the host does to a formula and to what it is decided over. Time does not
matter to it, and neither does a stop. -/
def Command.decide : Command H → Formula H × Bench H → Formula H × Bench H
  | .evaluate, (formula, bench) =>
    let decision := formula.decide bench
    (decision.rest, decision.bench)
  | .change edit, (formula, bench) => (formula, { bench with scene := edit bench.scene })
  | .tick _, before | .stop, before => before

namespace Session

variable {tree : Tree H} {session : Session H tree}

def formulated (session : Session H tree) : Formula H × Bench H :=
  (session.live.formula, session.cx.bench)

theorem wake_unheld (unheld : session.live.handles = []) (due : Wake) :
    (session.wake due).1 = session := by
  unfold wake
  split
  · rw [resume, resume_unheld due tree session.live session.cx unheld]
  · rfl

theorem perform_decides (weighed : tree.Weighed) (synchronous : tree.Synchronous)
    (command : Command H) (attended : session.live.Attended) :
    (session.perform command).formulated = command.decide session.formulated := by
  cases command with
  | evaluate =>
    have active := evaluate_decides tree synchronous weighed session.live session.cx
      (attended.idle synchronous)
    exact Prod.ext active.formula active.bench
  | tick delta =>
    exact dispatch_keeps (fun after => after.formulated = session.formulated)
      (fun due after same => by
        rw [wake_unheld (synchronous_handles after.live synchronous) due, same])
      (session.advance delta).1 (session.advance delta).2 rfl
  | stop =>
    obtain ⟨same, bench, _⟩ := stop_synchronous tree synchronous session.live session.cx
    exact Prod.ext same bench
  | change edit => rfl

theorem run_decides (weighed : tree.Weighed) (synchronous : tree.Synchronous)
    (commands : List (Command H)) (attended : session.live.Attended) :
    (session.run commands).formulated =
      commands.foldl (fun before command => command.decide before) session.formulated := by
  induction commands generalizing session with
  | nil => rfl
  | cons command rest ih =>
    rw [List.foldl_cons, ← perform_decides weighed synchronous command attended]
    exact ih (perform_attended weighed command attended)

end Session

theorem steps_of_conditions {trees : Forest H} (lives : LiveForest H trees)
    (leaves : ∀ tree ∈ trees.toList, tree.kind = .conditionNode) (bench : Bench H)
    (holds : (lives.formulas.decideAll bench).holds) :
    (lives.formulas.decideAll bench).steps = trees.length := by
  induction lives generalizing bench with
  | nil => rfl
  | @cons _ trees head tail ih =>
    obtain ⟨leaf, others⟩ := List.forall_mem_cons.mp leaves
    cases head with
    | condition status unit =>
      rw [LiveForest.formulas, Live.formula, Formulas.decideAll] at holds ⊢
      dsimp only at holds ⊢
      split at holds
      · rename_i first
        rw [if_pos first]
        have rest := ih others _ holds
        rw [rest]
        exact Nat.add_comm 1 trees.length
      · cases holds
    | @relay role => cases role <;> cases leaf
    | @ordered order => cases order <;> cases leaf
    | _ => cases leaf

end Runs

theorem synchronous_children {tree : Tree H} (synchronous : tree.Synchronous) :
    ∀ child ∈ tree.children, child.Synchronous := by
  intro child member node below
  apply synchronous
  rw [nodes_children]
  exact List.mem_cons_of_mem _ (List.mem_flatMap.mpr ⟨child, member, below⟩)

/-- A sequencer says that it runs once for each of its conditions, if they all hold. -/
theorem report_of_conditions {node : Tree H} (synchronous : node.Synchronous)
    (weighed : node.Weighed) (live : Live H node) (idle : live.Idle) (cx : Context H)
    (sequencer : node.kind = .sequencer)
    (leaves : ∀ child ∈ node.children, child.kind = .conditionNode)
    (holds : (live.formula.decide cx.bench).holds) : (evaluate node live cx).report =
      List.replicate node.children.length .running ++ [.success] := by
  rw [(evaluate_decides node synchronous weighed live cx idle).report, holds]
  match node, live with
  | .ordered .sequencer label children, .ordered status kids =>
    have steps : (kids.formulas.decideAll cx.bench).steps = children.length :=
      steps_of_conditions kids leaves cx.bench holds
    rw [Tree.children, length_toList, ← steps]
    rfl
  | .ordered .selector _ _, _ => cases sequencer
  | .relay role _ _, _ => cases role <;> cases sequencer

/-- A built tree that never waits stands for a formula over its conditions. At every activation in a
run it answers what the formula decides, changing just what deciding it changes, and asks for no
task. So does each of its nodes, which says on the way that it runs as often as the formula counts
steps, once for each part of a conjunction if those are conditions that hold. -/
theorem synchronous_tree_decides_formula {sources : Build.Sources H} {graph : Graph}
    {built : Built H} (ok : build sources graph = .ok built) (synchronous : built.tree.Synchronous)
    (scene : Scene H.Target) (sampler : H.Sampler) :
    (∀ commands : List (Command H),
      let start := Session.start built.tree scene sampler
      let session := start.run commands
      let decision := session.live.formula.decide session.cx.bench
      session.formulated =
        commands.foldl (fun before command => command.decide before) start.formulated ∧
      session.evaluate.2 = [Status.ofBool decision.holds] ∧
      session.evaluate.1.formulated = (decision.rest, decision.bench) ∧
      session.evaluate.1.cx.agenda = session.cx.agenda) ∧
    ∀ node ∈ built.tree.nodes, ∀ live : Live H node, live.Idle → ∀ cx,
      let decision := live.formula.decide cx.bench
      (evaluate node live cx).Decides Live.formula Live.Idle cx.agenda decision ∧
      (node.kind = .sequencer → (∀ child ∈ node.children, child.kind = .conditionNode) →
        decision.holds → (evaluate node live cx).report =
          List.replicate node.children.length .running ++ [.success]) := by
  have weighed := built_weighed ok
  constructor
  · intro commands start session decision
    have attended : session.live.Attended :=
      Session.run_attended weighed commands (initial_attended built.tree)
    have active := evaluate_decides built.tree synchronous weighed session.live session.cx
      (attended.idle synchronous)
    refine ⟨Session.run_decides weighed synchronous commands (initial_attended built.tree), ?_,
      Prod.ext active.formula active.bench, active.agenda⟩
    -- the root of a built tree hands on nothing but verdicts
    have silent : ∀ live : Live H built.tree, ∀ bench, (live.formula.decide bench).steps = 0 := by
      obtain ⟨root, tree, progress, _, _, rfl⟩ := build_eq_ok.mp ok
      rintro ⟨status, kid⟩ bench
      rfl
    have report := active.report
    rw [silent] at report
    exact report
  · intro node member live idle cx decision
    obtain ⟨synchronous, weighed⟩ :=
      forall_nodes (fun node => node.Synchronous ∧ node.Weighed)
        (fun _ good child below =>
          ⟨synchronous_children good.1 child below, weighed_children good.2 child below⟩)
        built.tree ⟨synchronous, weighed⟩ node member
    exact ⟨evaluate_decides node synchronous weighed live cx idle,
      report_of_conditions synchronous weighed live idle cx⟩

section Checklist

def Rehearsal.checklist : Graph where
  nodes := [
    { kind := "Root", id := "root", children := ["way"], params := {} },
    { kind := "Selector", id := "way", children := ["door", "windows"], params := {} },
    { kind := "Sequencer", id := "door", children := ["near", "shut"], params := {} },
    { kind := "ConditionNode", id := "near", params := {
        unit := some "Script", inputs := [.literal "near", .literal "t"] } },
    { kind := "Inverter", id := "shut", children := ["locked"], params := {} },
    { kind := "ConditionNode", id := "locked", params := {
        unit := some "Script", inputs := [.literal "locked", .literal "te"] } },
    { kind := "WeightedRandomSelector", id := "windows", children := ["left", "right"],
      params := { weights := [1, 1] } },
    { kind := "ConditionNode", id := "left", params := {
        unit := some "Script", inputs := [.literal "left", .literal "t"] } },
    { kind := "ConditionNode", id := "right", params := {
        unit := some "Script", inputs := [.literal "right", .literal "f"] } }]

/-- The lock faults the second time that it is tried, so it counts as open. -/
theorem checklist_decided : ∃ built, build rehearsed Rehearsal.checklist = .ok built ∧
    built.tree.Synchronous ∧ (built.fresh.run [.evaluate]).evaluate.2 = [.success] ∧
      (built.fresh.run [.evaluate]).evaluate.1.cx.scene.target.calls =
        ["near.poll", "locked.poll", "right.poll", "near.poll", "locked.poll"] := by
  have never : ((build rehearsed Rehearsal.checklist).toOption.map fun built =>
      built.tree.nodes.all fun node => node.kind.isSynchronous) = some true := by decide +kernel
  have decided : ((build rehearsed Rehearsal.checklist).toOption.map fun built =>
      let session := built.fresh.run [.evaluate]
      let decision := session.live.formula.decide session.cx.bench
      (decision.holds, decision.bench.scene.target.calls)) =
      some (true, ["near.poll", "locked.poll", "right.poll", "near.poll", "locked.poll"]) := by
    decide +kernel
  cases ok : build rehearsed Rehearsal.checklist with
  | error _ => rw [ok] at never; cases never
  | ok built =>
    rw [ok] at never decided
    have synchronous : built.tree.Synchronous := List.all_eq_true.mp (Option.some.inj never)
    obtain ⟨holds, calls⟩ := Prod.mk.inj (Option.some.inj decided)
    obtain ⟨_, report, formulated, _⟩ := (synchronous_tree_decides_formula ok synchronous
      ⟨⟨[]⟩, built.blackboard⟩ (Sampler.ofSeed 0)).1 [.evaluate]
    exact ⟨built, rfl, synchronous,
      report.trans (congrArg (fun holds => [Status.ofBool holds]) holds),
      (congrArg (fun state => state.2.scene.target.calls) formulated).trans calls⟩

end Checklist

end ReactiveTree
