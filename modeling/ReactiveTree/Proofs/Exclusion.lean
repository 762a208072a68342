import ReactiveTree.Proofs.Manners

/-!
Which children of a node are active between two calls. A selector lets go of the later children when
it hears that a child runs, and only then; a weighted choice is made anew with every activation, and
what an earlier choice left behind is not stopped. So the children of a selector exclude each other
as far as the earlier one cannot run unheard, and what is active beneath a weighted choice is the
chosen child or one that outlasted its own verdict.
-/

namespace ReactiveTree

variable {H : Host}

/-- Nothing of the part runs, and it has no task to be woken for. -/
structure Part.AtRest (part : Part H) : Prop where
  idle : part.live.Idle
  unheld : part.live.handles = []

theorem at_rest_of_unheld {part : Part H} (reached : part.live.Reachable)
    (weighed : part.tree.Weighed) (unheld : part.live.handles = []) : part.AtRest :=
  ⟨idle_of_unheld part.live (reached.attended weighed) unheld, unheld⟩

/-- The child that a weighted choice was made for. -/
def Live.selected {tree : Tree H} : Live H tree → Option Nat
  | .weighted _ selected _ => selected
  | _ => none

def Live.isActing {tree : Tree H} (live : Live H tree) : Bool :=
  live.parts.any fun part => part.tree.kind = .actionNode && part.live.isRunning

section Runs

variable {sources : Build.Sources H} {graph : Graph} {built : Built H}

theorem run_parts_reachable (tree : Tree H) (scene : Scene H.Target) (sampler : H.Sampler)
    (commands : List (Command H)) :
    ∀ part ∈ ((Session.start tree scene sampler).run commands).live.parts, part.live.Reachable :=
  forall_parts (fun part => part.live.Reachable) (fun _ => Live.Reachable.children) _
    (Session.run_reachable commands .fresh)

theorem parts_weighed (ok : build sources graph = .ok built) (live : Live H built.tree) :
    ∀ part ∈ live.parts, part.tree.Weighed := by
  intro part member
  refine forall_nodes Tree.Weighed (fun _ => weighed_children) built.tree (built_weighed ok) _ ?_
  rw [← parts_trees live]
  exact List.mem_map_of_mem member

/-- After every call of a run, while a child of a selector runs that speaks, everything beneath the
later children is at rest. So it is while anything runs beneath a child that speaks and is quiet, or
beneath any child at all if all of them settle. -/
theorem selector_children_exclude (ok : build sources graph = .ok built) (scene : Scene H.Target)
    (sampler : H.Sampler) (commands : List (Command H)) :
    let session := (Session.start built.tree scene sampler).run commands
    ∀ part ∈ session.live.parts, part.tree.kind = .selector →
      (part.live.children.Pairwise fun first later =>
        first.tree.Speaks → first.live.status = .running → later.AtRest) ∧
      (part.live.children.Pairwise fun first later =>
        first.tree.Speaks ∧ first.tree.Quiet ∨ (∀ child ∈ part.tree.children, child.Settles) →
          ¬ first.live.Idle → later.AtRest) := by
  intro session part member selector
  have reached := run_parts_reachable built.tree scene sampler commands part member
  have weighed := weighed_children (parts_weighed ok session.live part member)
  obtain ⟨tree, live⟩ := part
  match tree, live with
  | .ordered .selector label children, .ordered status lives =>
    have kids : lives.Reachable := reached.children
    have yields : Order.Yields .selector children.Settles lives.members := reached.composed.yields
    have rests : ∀ kid ∈ lives.members, kid.live.handles = [] → kid.AtRest := fun kid there =>
      at_rest_of_unheld (kids kid there) (weighed kid.tree (member_tree there))
    constructor
    · refine yields.imp_of_mem ?_
      intro first later _ there yields speaks runs
      exact rests later there (yields (.inr ⟨rfl, speaks⟩) runs)
    · refine yields.imp_of_mem ?_
      intro first later here there yields heard active
      -- either way the child itself runs, or nothing would beneath it
      rcases heard with ⟨speaks, quiet⟩ | settles
      · have runs : first.live.status = .running := by
          by_contra still
          exact active (quiet first.live (kids first here) still)
        exact rests later there (yields (.inr ⟨rfl, speaks⟩) runs)
      · have quiet := (settles _ (member_tree here)).quiet (weighed first.tree (member_tree here))
        have runs : first.live.status = .running := by
          by_contra still
          exact active (quiet first.live (kids first here) still)
        exact rests later there (yields (.inl settles) runs)
  | .ordered .sequencer _ _, _ => cases selector
  | .relay role _ _, _ => cases role <;> cases selector

end Runs

section Sentry

namespace Rehearsal

def steady (name : String) : Descriptor :=
  { kind := "ActionNode", id := name, params := {
      unit := some "Act", inputs := [.literal name, .literal "", .literal "", .literal ""] } }

def polled (name script child : String) : Descriptor :=
  { kind := "LoopConditionNode", id := name, children := [child], params := {
      unit := some "Script", mode := some "Both", periodMs := some 0
      inputs := [.literal name, .literal script] } }

/-- A patrol that is given up for an alarm, as long as there is power. -/
def sentry : Graph where
  nodes := [
    { kind := "Root", id := "root", children := ["duty"], params := {} },
    { kind := "Selector", id := "duty", children := ["watch", "patrol"], params := {} },
    { kind := "Sequencer", id := "watch", children := ["power", "danger"], params := {} },
    { kind := "ConditionNode", id := "power", params := {
        unit := some "Script", inputs := [.literal "power", .literal "t"] } },
    polled "danger" "ft" "alarm", steady "alarm", steady "patrol"]

/-- The same with the alarm in a function of its own, which hands on verdicts only. -/
def muffled : Graph where
  nodes := [
    { kind := "Root", id := "root", children := ["duty"], params := {} },
    { kind := "Selector", id := "duty", children := ["watch", "patrol"], params := {} },
    { kind := "FunctionNode", id := "watch", params := { subtree := some (.inline {
        nodes := [
          { kind := "Root", id := "top", children := ["danger"], params := {} },
          polled "danger" "ft" "alarm", steady "alarm"] }) } },
    steady "patrol"]

end Rehearsal

theorem sentry_interrupts : ∃ built, build rehearsed Rehearsal.sentry = .ok built ∧
    ∃ part ∈ (built.fresh.run [.evaluate, .tick 0]).live.parts, part.tree.kind = .selector ∧
      ∃ first later, part.live.children = [first, later] ∧ first.live.isActing ∧ later.AtRest := by
  have acts : ((build rehearsed Rehearsal.sentry).toOption.map fun built =>
      (built.fresh.run [.evaluate, .tick 0]).live.parts.any fun part =>
        part.tree.kind = .selector && part.live.children.length = 2 &&
          part.live.children.head?.any fun first =>
            first.tree.isSpeaking && first.live.isRunning && first.live.isActing) = some true := by
    decide +kernel
  cases ok : build rehearsed Rehearsal.sentry with
  | error _ => rw [ok] at acts; cases acts
  | ok built =>
    rw [ok] at acts
    obtain ⟨part, member, facts⟩ := List.any_eq_true.mp (Option.some.inj acts)
    simp only [Bool.and_eq_true, decide_eq_true_eq] at facts
    obtain ⟨⟨selector, pair⟩, facts⟩ := facts
    obtain ⟨first, later, children⟩ := List.length_eq_two.mp pair
    rw [children, List.head?_cons, Option.any_some] at facts
    simp only [Bool.and_eq_true] at facts
    obtain ⟨⟨speaking, running⟩, acting⟩ := facts
    have alone := (selector_children_exclude ok ⟨⟨[]⟩, built.blackboard⟩ (Sampler.ofSeed 0)
      [.evaluate, .tick 0] part member selector).1
    have weighed := weighed_children (parts_weighed ok _ part member)
    rw [← children_trees part.live] at weighed
    rw [children] at alone weighed
    have speaks := speaks_of_check first.tree (weighed _ List.mem_cons_self) speaking
    exact ⟨built, rfl, part, member, selector, first, later, children, acting,
      (List.pairwise_cons.mp alone).1 later (List.mem_singleton_self later) speaks
        (isRunning_iff.mp running)⟩

theorem muffled_runs_beside : (build rehearsed Rehearsal.muffled).toOption.map (fun built =>
    (built.fresh.run [.evaluate, .tick 0]).live.parts.any fun part =>
      part.tree.kind = .selector && part.live.children.countP (·.live.isActing) = 2) =
    some true := by
  decide +kernel

end Sentry

section Runs

variable {sources : Build.Sources H} {graph : Graph} {built : Built H}

/-- After every call of a run, a child of a weighted choice beneath which something runs is the one
that the choice was made for at its last activation, and the choice still runs, if the child
settles. -/
theorem weighted_child_chosen (ok : build sources graph = .ok built) (scene : Scene H.Target)
    (sampler : H.Sampler) (commands : List (Command H)) :
    let session := (Session.start built.tree scene sampler).run commands
    ∀ part ∈ session.live.parts, part.tree.kind = .weightedRandomSelector →
      ∀ index kid, part.live.children[index]? = some kid → kid.tree.Settles → ¬ kid.live.Idle →
        part.live.selected = some index ∧ part.live.status = .running := by
  intro session part member weighted index kid found settles active
  have reached := run_parts_reachable built.tree scene sampler commands part member
  have weighed := weighed_children (parts_weighed ok session.live part member)
  obtain ⟨tree, live⟩ := part
  match tree, live with
  | .weighted label bounds children, .weighted status selected lives =>
    have there := List.mem_of_getElem? found
    have runs : kid.live.status = .running := by
      by_contra still
      exact active (settles.quiet (weighed kid.tree (member_tree there)) kid.live
        (reached.children kid there) still)
    have chosen : Chosen status selected lives.members := reached.composed
    obtain ⟨picked, upheld⟩ := chosen index kid found runs
    exact ⟨picked settles, upheld (picked settles)⟩
  | .ordered order _ _, _ => cases order <;> cases weighted
  | .relay role _ _, _ => cases role <;> cases weighted

end Runs

section Forage

namespace Rehearsal

/-- One of two places to look at, chosen at random. -/
def forage : Graph where
  nodes := [
    { kind := "Root", id := "root", children := ["place"], params := {} },
    { kind := "WeightedRandomSelector", id := "place", children := ["river", "wood"],
      params := { weights := [1, 1] } },
    steady "river", steady "wood"]

/-- The same where the way to one of them opens late. -/
def floodedForage : Graph where
  nodes := [
    { kind := "Root", id := "root", children := ["place"], params := {} },
    { kind := "WeightedRandomSelector", id := "place", children := ["ford", "wood"],
      params := { weights := [1, 1] } },
    polled "ford" "ft" "river", steady "river",
    { kind := "ConditionNode", id := "wood", params := {
        unit := some "Script", inputs := [.literal "wood", .literal "t"] } }]

def turns : List Single := [0, Single.ofBits 0x3f400000]

end Rehearsal

theorem forage_chosen : ∃ built, build rehearsed Rehearsal.forage = .ok built ∧
    ∃ part ∈ (built.fresh.run [.evaluate]).live.parts, ∃ kid, part.live.children[1]? = some kid ∧
      ¬ kid.live.Idle ∧ part.live.selected = some 1 := by
  have acts : ((build rehearsed Rehearsal.forage).toOption.map fun built =>
      (built.fresh.run [.evaluate]).live.parts.any fun part =>
        part.tree.kind = .weightedRandomSelector && part.live.children[1]?.any fun kid =>
          kid.tree.isSettling && kid.live.isRunning) = some true := by decide +kernel
  cases ok : build rehearsed Rehearsal.forage with
  | error _ => rw [ok] at acts; cases acts
  | ok built =>
    rw [ok] at acts
    obtain ⟨part, member, facts⟩ := List.any_eq_true.mp (Option.some.inj acts)
    rw [Bool.and_eq_true, Option.any_eq_true] at facts
    obtain ⟨weighted, kid, found, facts⟩ := facts
    obtain ⟨settling, running⟩ := Bool.and_eq_true_iff.mp facts
    have active : ¬ kid.live.Idle := fun idle => idle.status_ne (isRunning_iff.mp running)
    have chosen := weighted_child_chosen ok ⟨⟨[]⟩, built.blackboard⟩ (Sampler.ofSeed 0)
      [.evaluate] part member (of_decide_eq_true weighted) 1 kid found
      (settles_of_check kid.tree settling) active
    exact ⟨built, rfl, part, member, kid, found, active, chosen.1⟩

/-- The gate that was chosen first goes on to poll when the other place is chosen. -/
theorem flooded_forage_unchosen : (build rehearsed Rehearsal.floodedForage).toOption.map
    (fun (built : Built Rehearsal) =>
      let start := Session.start built.tree ⟨⟨[]⟩, built.blackboard⟩
        (Sampler.replayed Rehearsal.turns Rehearsal.turns)
      (start.run [.evaluate, .evaluate, .tick 0]).live.parts.any fun part =>
        part.tree.kind = .weightedRandomSelector && part.live.children.zipIdx.any fun kid =>
          kid.1.live.isActing && part.live.selected ≠ some kid.2) = some true := by
  decide +kernel

end Forage

end ReactiveTree
