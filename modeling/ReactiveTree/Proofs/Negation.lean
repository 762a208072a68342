import ReactiveTree.Proofs.Footprint
import ReactiveTree.Proofs.Formula
import ReactiveTree.Proofs.Reporting

/-!
Negating a tree twice. The two inverters that stand above the tree repeat what it reports and run as
long as it runs, so they refuse an activation just when the tree would refuse it. Wakes reach the
tree through the ranges of ids that the inverters look into, and so the inner one has to be numbered
before it.
-/

namespace ReactiveTree

variable {H : Host}

@[reducible] def Tree.twiceNegated (outer inner : Label) (tree : Tree H) : Tree H :=
  .relay .inverse outer (.relay .inverse inner tree)

section Reports

open Report

variable {report : Report} {prior after held : Status} {faulted : Prop}

theorem invert_running (status : Status) : status.invert.isRunning = status.isRunning := by
  cases status <;> rfl

theorem Report.Orderly.hand_twice (orderly : report.Orderly) :
    Relay.inverse.hand (Relay.inverse.hand report) = report := by
  induction orderly with
  | silent => rfl
  | verdict success => cases success <;> rfl
  | running _ ih => exact congrArg (.running :: ·) ih

/-- An inverter that runs as its child does when the child is called runs as the child does
afterwards. -/
theorem Report.Agrees.echoes (agrees : report.Agrees prior faulted after)
    (alike : held.isRunning = prior.isRunning) :
    ((Relay.inverse.hand report).getLastD held).isRunning = after.isRunning := by
  have handed : Relay.inverse.hand report = report.map Status.invert := by
    unfold Relay.hand
    exact congrArg (List.map Status.invert) agrees.orderly.reported
  have last : ((Relay.inverse.hand report).getLastD held).isRunning =
      (report.getLastD prior).isRunning := by
    rw [handed, List.getLastD_eq_getLast?, List.getLastD_eq_getLast?, List.getLast?_map]
    cases report.getLast? with
    | none => exact alike
    | some status => exact invert_running status
  by_cases fault : faulted
  -- a child that faulted says that it failed and shows a warning, so neither of the two runs
  · obtain ⟨failed, warning⟩ := agrees.warns fault
    rw [last, warning, List.getLastD_eq_getLast?, failed]
    rfl
  · rw [last, agrees.follows fault]

end Reports

/-- The second context differs from the first one in its journal only, and not in the calls that it
tells of. -/
structure Context.Veiled (cx cx' : Context H) : Prop where
  journal : cx' = cx.withJournal cx'.journal
  bench : cx'.bench = cx.bench

section Veils

variable {cx cx' : Context H}

namespace Context.Veiled

theorem refl (cx : Context H) : cx.Veiled cx := ⟨rfl, rfl⟩

theorem announce (veiled : cx.Veiled cx') (label : Label) (kind : NodeKind) (status : Status) :
    cx.Veiled (cx'.announce label kind status) := by
  refine ⟨?_, (bench_announce cx' label kind status).trans veiled.bench⟩
  rw [veiled.journal]
  rfl

theorem announceAll (veiled : cx.Veiled cx') (label : Label) (kind : NodeKind) (report : Report) :
    cx.Veiled (cx'.announceAll label kind report) := by
  induction report generalizing cx' with
  | nil => exact veiled
  | cons status report ih => exact ih (veiled.announce label kind status)

theorem settle (veiled : cx.Veiled cx') (label : Label) (kind : NodeKind) (status : Status) :
    cx.Veiled (cx'.settle label kind status) := by
  unfold Context.settle
  split
  · exact veiled
  · exact veiled.announce label kind .waiting

theorem agenda (veiled : cx.Veiled cx') : cx'.agenda = cx.agenda := by
  rw [veiled.journal]
  rfl

theorem scene (veiled : cx.Veiled cx') : cx'.scene = cx.scene :=
  congrArg Bench.scene veiled.bench

theorem setAgenda (veiled : cx.Veiled cx') (agenda : Agenda) :
    Veiled { cx with agenda } { cx' with agenda } := by
  refine ⟨?_, veiled.bench⟩
  rw [veiled.journal]
  rfl

theorem setScene (veiled : cx.Veiled cx') (scene : Scene H.Target) :
    Veiled { cx with scene } { cx' with scene } := by
  refine ⟨?_, congrArg (fun bench : Bench H => { bench with scene }) veiled.bench⟩
  rw [veiled.journal]
  rfl

end Context.Veiled

theorem visit_veiled {tree : Tree H} (live : Live H tree) (veiled : cx.Veiled cx')
    (summons : Summons) :
    let turn := live.visit cx summons
    let turn' := live.visit cx' summons
    turn'.live = turn.live ∧ turn'.report = turn.report ∧ turn.cx.Veiled turn'.cx := by
  obtain ⟨_, new, _, journal, same⟩ := visit_writes live cx summons cx'.journal
  rw [← veiled.journal] at same
  dsimp only
  rw [same]
  refine ⟨rfl, rfl, rfl, ?_⟩
  have before : cx'.journal.reverse.filterMap Event.call? =
      cx.journal.reverse.filterMap Event.call? := congrArg Bench.calls veiled.bench
  simp only [Context.bench, Context.events, Context.withJournal, journal, List.reverse_append,
    List.filterMap_append, before]

end Veils

namespace Session

/-- A call of the top node on its own: wakes are handed to it without asking whether they are for
its tree. -/
def drive {tree : Tree H} (session : Session H tree) : Command H → Session H tree × Report
  | .evaluate => session.evaluate
  | .tick delta =>
    let due := session.advance delta
    dispatch resume due.1 due.2
  | .stop => (session.stop, [])
  | .change edit => (session.edit edit, [])

variable {tree : Tree H} {outer inner : Label}

/-- The second session is the first one below two inverters, and these run exactly if the tree
does. -/
structure Negates (direct : Session H tree)
    (wrapped : Session H (tree.twiceNegated outer inner)) : Prop where
  live : ∃ upper lower, wrapped.live = .relay upper (.relay lower direct.live) ∧
    upper.isRunning = direct.live.isRunning ∧ lower.isRunning = direct.live.isRunning
  cx : direct.cx.Veiled wrapped.cx

variable {direct : Session H tree} {wrapped : Session H (tree.twiceNegated outer inner)}

theorem negates_of_heard (outer inner : Label) {turn turn' : Turn H (Live H tree)}
    {prior upper lower : Status} {faulted : Prop}
    (agrees : turn.report.Agrees prior faulted turn.live.status)
    (up : upper.isRunning = prior.isRunning) (low : lower.isRunning = prior.isRunning)
    (same : turn'.live = turn.live ∧ turn'.report = turn.report ∧ turn.cx.Veiled turn'.cx) :
    let heard := Relay.inverse.hand turn'.report
    let said := Relay.inverse.hand heard
    Negates ⟨turn.live, turn.cx⟩
      (⟨.relay (said.getLastD upper) (.relay (heard.getLastD lower) turn'.live),
        (turn'.cx.announceAll inner .inverseDecorator heard).announceAll outer .inverseDecorator
          said⟩ : Session H (tree.twiceNegated outer inner)) ∧ turn.report = said := by
  obtain ⟨live, report, veiled⟩ := same
  rw [live, report]
  have below := agrees.echoes low
  -- the outer inverter hears the inner one as that one hears the tree
  have told : Report.Agrees lower False _ _ := (agrees.orderly.hand .inverse).agrees
  have above := told.echoes (up.trans low.symm)
  exact ⟨⟨⟨_, _, rfl, above.trans below, below⟩, (veiled.announceAll ..).announceAll ..⟩,
    agrees.orderly.hand_twice.symm⟩

theorem evaluate_negates (negates : direct.Negates wrapped) :
    direct.evaluate.1.Negates wrapped.evaluate.1 ∧ direct.evaluate.2 = wrapped.evaluate.2 := by
  obtain ⟨live, cx⟩ := direct
  obtain ⟨_, cx'⟩ := wrapped
  obtain ⟨⟨upper, lower, rfl, up, low⟩, veiled⟩ := negates
  unfold Session.evaluate
  by_cases running : live.isRunning
  · let relays : Live H (tree.twiceNegated outer inner) := .relay upper (.relay lower live)
    have refuses : relays.isRunning := up.trans running
    rw [evaluate_of_running live cx running, evaluate_of_running relays cx' refuses]
    exact ⟨⟨⟨upper, lower, rfl, up, low⟩, veiled⟩, rfl⟩
  · have reached := (veiled.announce outer .inverseDecorator .running).announce inner
      .inverseDecorator .running
    have heard := negates_of_heard outer inner (evaluate_agrees tree live cx) rfl rfl
      (visit_veiled live reached .evaluate)
    have idle : ¬ upper.isRunning := up ▸ running
    have below : ¬ lower.isRunning := low ▸ running
    rw [ReactiveTree.evaluate, if_neg idle, ReactiveTree.evaluate, if_neg below]
    exact heard

theorem stop_negates (negates : direct.Negates wrapped) : direct.stop.Negates wrapped.stop := by
  obtain ⟨live, cx⟩ := direct
  obtain ⟨_, cx'⟩ := wrapped
  obtain ⟨⟨upper, lower, rfl, -, -⟩, veiled⟩ := negates
  obtain ⟨same, -, halted⟩ := visit_veiled live veiled .stop
  have same : (ReactiveTree.stop tree live cx').live = (ReactiveTree.stop tree live cx).live := same
  have idle : (ReactiveTree.stop tree live cx).live.isRunning = false :=
    decide_eq_false (stop_idle tree live cx).status_ne
  let below (kid : Live H tree) : Live H (tree.twiceNegated outer inner) :=
    .relay .waiting (.relay .waiting kid)
  exact ⟨⟨.waiting, .waiting, congrArg below same, idle.symm, idle.symm⟩,
    (halted.settle inner .inverseDecorator lower).settle outer .inverseDecorator upper⟩

section Wakes

variable (before : inner.id ≤ tree.id) (least : ∀ id ∈ tree.labels.map Label.id, tree.id ≤ id)

theorem stale_of_uncovered {live : Live H tree} {due : Wake}
    (least : ∀ id ∈ tree.labels.map Label.id, tree.id ≤ id) (uncovered : ¬ tree.covers due.node) :
    due.Stale live.handles := by
  rintro handle held ⟨own, _⟩
  have inside := handles_node live handle held
  rw [own] at inside
  apply uncovered
  simp only [Tree.covers, Bool.and_eq_true, decide_eq_true_eq]
  exact ⟨least _ inside, lt_limit_of_mem tree inside⟩

include before least in
theorem resume_negates (negates : direct.Negates wrapped) (due : Wake) :
    (direct.resume due).1.Negates (wrapped.resume due).1 ∧
      (direct.resume due).2 = (wrapped.resume due).2 := by
  obtain ⟨live, cx⟩ := direct
  obtain ⟨_, cx'⟩ := wrapped
  obtain ⟨⟨upper, lower, rfl, up, low⟩, veiled⟩ := negates
  let relays : Live H (tree.twiceNegated outer inner) := .relay upper (.relay lower live)
  unfold Session.resume
  dsimp only
  by_cases covered : tree.covers due.node
  · have reached : (Tree.relay .inverse inner tree).covers due.node := by
      simp only [Tree.covers, Bool.and_eq_true, decide_eq_true_eq] at covered ⊢
      exact ⟨Nat.le_trans before covered.1, Nat.lt_of_lt_of_le covered.2 (Nat.le_max_right _ _)⟩
    rw [ReactiveTree.resume, if_pos reached, ReactiveTree.resume, if_pos covered]
    exact negates_of_heard outer inner (resume_agrees due tree live cx) up low
      (visit_veiled live veiled (.resume due))
  · -- neither way does the wake find anybody
    have inert : ReactiveTree.resume due _ relays cx' = ⟨relays, cx', []⟩ := by
      rw [ReactiveTree.resume, ReactiveTree.resume, if_neg covered]
      exact ite_self _
    rw [resume_stale due tree live cx (stale_of_uncovered least covered), inert]
    exact ⟨⟨⟨upper, lower, rfl, up, low⟩, veiled⟩, rfl⟩

include before least in
theorem drive_negates (negates : direct.Negates wrapped) (command : Command H) :
    (direct.drive command).1.Negates (wrapped.drive command).1 ∧
      (direct.drive command).2 = (wrapped.drive command).2 := by
  cases command with
  | evaluate => exact evaluate_negates negates
  | tick delta =>
    have advanced : (direct.advance delta).2.Negates (wrapped.advance delta).2 := by
      unfold advance
      rw [negates.cx.agenda]
      exact ⟨negates.live, negates.cx.setAgenda _⟩
    have batch : (wrapped.advance delta).1 = (direct.advance delta).1 := by
      unfold advance
      rw [negates.cx.agenda]
    simp only [drive, batch]
    exact dispatch_beside Negates
      (fun due _ _ negates => resume_negates before least negates due) _ advanced
  | stop => exact ⟨stop_negates negates, rfl⟩
  | change edit =>
    refine ⟨⟨negates.live, ?_⟩, rfl⟩
    simp only [drive, Session.edit, negates.cx.scene]
    exact negates.cx.setScene _

end Wakes

/-- The tree and what it works on are in the same state in both sessions, and the same units were
called in the same order. -/
structure Echoes (direct : Session H tree) (wrapped : Session H (tree.twiceNegated outer inner)) :
    Prop where
  live : ∃ upper lower, wrapped.live = .relay upper (.relay lower direct.live)
  agenda : wrapped.cx.agenda = direct.cx.agenda
  bench : wrapped.cx.bench = direct.cx.bench

theorem Negates.echoes (negates : direct.Negates wrapped) : direct.Echoes wrapped := by
  obtain ⟨upper, lower, shape, _⟩ := negates.live
  exact ⟨⟨upper, lower, shape⟩, negates.cx.agenda, negates.cx.bench⟩

end Session

/-- Driving an idle tree below two inverters that never ran answers every call with the same report
as driving the tree, makes the same calls of units in the same order, and leaves the agenda, the
target, the blackboard and all nodes of the tree in the same state. The inner inverter has to be
numbered before the tree, and the tree before the nodes below it. -/
theorem double_negation_is_transparent {tree : Tree H} {outer inner : Label}
    (before : inner.id ≤ tree.id) (least : ∀ id ∈ tree.labels.map Label.id, tree.id ≤ id)
    (live : Live H tree) (idle : ¬ live.isRunning) (cx : Context H) (commands : List (Command H)) :
    let direct : Session H tree := ⟨live, cx⟩
    let wrapped : Session H (tree.twiceNegated outer inner) :=
      ⟨.relay .waiting (.relay .waiting live), cx⟩
    List.Forall₂ (fun said said' => said.1 = said'.1 ∧ said.2.Echoes said'.2)
      (Session.history Session.drive commands direct)
      (Session.history Session.drive commands wrapped) := by
  intro direct wrapped
  have still : false = live.isRunning := (eq_false_of_ne_true idle).symm
  have negates : direct.Negates wrapped := ⟨⟨.waiting, .waiting, rfl, still, still⟩, .refl cx⟩
  have heard := Session.history_beside Session.Negates
    (fun command _ _ negates => Session.drive_negates before least negates command) commands
    negates
  rw [List.map_id'] at heard
  exact heard.imp fun _ _ said => ⟨said.1, said.2.echoes⟩

section Chores

namespace Rehearsal

def chore (id : Nat) : Tree Rehearsal :=
  .action ⟨id, "work"⟩ (acted "work" "-" "-s" "-")

def twoCalls (tree : Tree Rehearsal) : List Report :=
  let session := Session.start tree ⟨⟨[]⟩, {}⟩ (Sampler.ofSeed 0)
  (Session.history Session.drive [.evaluate, .tick 0] session).map Prod.fst

end Rehearsal

open Rehearsal

theorem chore_is_reported :
    let cx : Context Rehearsal := ⟨⟨⟨[]⟩, {}⟩, {}, Sampler.ofSeed 0, []⟩
    let live := Live.initial (chore 5)
    1 ≤ (chore 5).id ∧ (∀ id ∈ (chore 5).labels.map Label.id, (chore 5).id ≤ id) ∧
      ¬ live.isRunning ∧
      List.Forall₂ (fun said said' => said.1 = said'.1 ∧ said.2.Echoes said'.2)
        (Session.history Session.drive [.evaluate, .tick 0] ⟨live, cx⟩)
        (Session.history Session.drive [.evaluate, .tick 0]
          (⟨.relay .waiting (.relay .waiting live), cx⟩ :
            Session Rehearsal ((chore 5).twiceNegated ⟨0, "outer"⟩ ⟨1, "inner"⟩))) :=
  ⟨by decide, by decide, by decide,
    double_negation_is_transparent (by decide) (by decide) _ (by decide) _ _⟩

/-- Inverters that are numbered behind their child lose its wakes, and so do inverters above a tree
that is numbered behind one of its own nodes. -/
theorem late_inverters_lose_wakes :
    let work := chore 5
    let negated : Tree Rehearsal := .relay .inverse ⟨5, "late"⟩ (chore 3)
    (¬ work.covers 11 ∧ ¬ work.covers 10 ∧ twoCalls work = [[], [.success]] ∧
      twoCalls (work.twiceNegated ⟨11, "outer"⟩ ⟨10, "inner"⟩) = [[], []]) ∧
    ¬ negated.covers 0 ∧ ¬ negated.covers 1 ∧ twoCalls negated = [[], [.failure]] ∧
      twoCalls (negated.twiceNegated ⟨0, "outer"⟩ ⟨1, "inner"⟩) = [[], []] := by
  decide +kernel

end Chores

end ReactiveTree
