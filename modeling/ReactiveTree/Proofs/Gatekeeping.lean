import ReactiveTree.Proofs.Exclusion

/-!
What a gate leaves running when its condition fails or faults. A poll that faults stops the child,
and so does one that fails unless the gate had failed before. A gate that had failed leaves the
child alone, and then the child runs only if it was activated since without a word of its own.
-/

namespace ReactiveTree

variable {H : Host}

section Polls

variable {label : Label} {mode : PollMode} {period : Nat} {child : Tree H} {status : Status}
  {unit : H.Condition} {last : Status} {kid : Live H child} {cx : Context H}

theorem stop_at_rest (tree : Tree H) (live : Live H tree) (cx : Context H) :
    Part.AtRest ⟨tree, (stop tree live cx).live⟩ :=
  ⟨stop_idle tree live cx, stop_handles tree live cx⟩

/-- A poll that faults stops the child, and so does one that fails if it is news. -/
theorem pollGate_stops (fails : (cx.poll label unit).answer ≠ some true)
    (news : (cx.poll label unit).answer = none ∨ last ≠ .failure) :
    Part.AtRest ⟨child,
      (pollGate label mode period (evaluate child) (stop child) status unit last kid cx).kid⟩ := by
  match answer : (cx.poll label unit).answer with
  | none =>
    rw [pollGate_faulted answer]
    exact stop_at_rest child kid _
  | some true => exact absurd answer fails
  | some false =>
    rw [pollGate_closes answer (news.resolve_left (by rw [answer]; nofun))]
    exact stop_at_rest child kid _

theorem pollGate_spares (fails : (cx.poll label unit).answer = some false)
    (failed : last = .failure) :
    (pollGate label mode period (evaluate child) (stop child) status unit last kid cx).kid =
      kid := by
  rw [pollGate_closed fails failed]

end Polls

/-- When the condition of a gate fails or faults, the poll leaves nothing running beneath the gate
and no task held there if it is the first of an activation, if it faulted, or if the gate had not
failed before. If the gate had failed before, nothing runs beneath it either in any state that calls
lead to, so long as the child is quiet and, where the gate polls without an end, the child speaks.
All nodes are in such states after every call of a run. -/
theorem failed_poll_leaves_nothing_running (tree : Tree H) :
    (∀ (scene : Scene H.Target) (sampler : H.Sampler) (commands : List (Command H)),
      ∀ part ∈ ((Session.start tree scene sampler).run commands).live.parts,
        part.tree ∈ tree.nodes ∧ part.live.Reachable) ∧
    ∀ {label : Label} {bound : H.Condition} {mode : PollMode} {period : Nat} {child : Tree H}
      (status : Status) (unit : H.Condition) (timer : Option Nat) (last : Status)
      (kid : Live H child) (cx : Context H), (H.poll unit cx.scene).answer ≠ some true →
        let gate : Live H (.gate label bound mode period child) := .gate status unit timer last kid
        (status ≠ .running → ∀ part ∈ (evaluate _ gate cx).live.children, part.AtRest) ∧
        ∀ wake : Wake, wake.node = label.id → timer = some wake.task →
          let after := (resume wake _ gate cx).live
          ((H.poll unit cx.scene).answer = none ∨ last ≠ .failure →
            ∀ part ∈ after.children, part.AtRest) ∧
          (gate.Reachable → child.Quiet → mode ≠ .both ∨ child.Speaks →
            ∀ part ∈ after.children, part.live.Idle) := by
  constructor
  · intro scene sampler commands part member
    constructor
    · rw [← parts_trees]
      exact List.mem_map_of_mem member
    · exact run_parts_reachable tree scene sampler commands part member
  intro label bound mode period child status unit timer last kid cx fails gate
  constructor
  · intro still
    have scene : ((cx.cancel timer).announce label .loopConditionNode .running).scene = cx.scene :=
      Context.cancel_scene cx timer
    rw [evaluate, if_neg (not_isRunning still)]
    refine List.forall_mem_singleton.mpr (pollGate_stops ?_ (.inr (by decide)))
    rw [Context.poll, scene]
    exact fails
  · intro wake own held after
    have polled : after.children = [⟨child,
        (pollGate label mode period (evaluate child) (stop child) status unit last kid cx).kid⟩] := by
      simp only [after, gate, resume, if_pos own, if_pos held, Live.children]
    rw [polled]
    constructor
    · exact fun news => List.forall_mem_singleton.mpr (pollGate_stops fails news)
    · intro reached quiet heard
      refine List.forall_mem_singleton.mpr ?_
      by_cases news : (H.poll unit cx.scene).answer = none ∨ last ≠ .failure
      · exact (pollGate_stops fails news).idle
      · -- the gate has heard all that the child did, and the last of it was a failure
        obtain ⟨answered, failed⟩ := not_or.mp news
        have failed := Decidable.not_not.mp failed
        have composed : mode.Composed child.Speaks status last timer kid.status := reached.composed
        have still : kid.status ≠ .running :=
          composed.closed heard (by rw [held]; exact Option.some_ne_none _) failed
        obtain ⟨verdict, answer⟩ := Option.ne_none_iff_exists'.mp answered
        have fails : (cx.poll label unit).answer = some false := by
          cases verdict with
          | true => exact absurd answer fails
          | false => exact answer
        rw [pollGate_spares fails failed]
        exact quiet kid (reached.children _ List.mem_cons_self) still

section Vigil

namespace Rehearsal

def vigil : Graph where
  nodes := [
    { kind := "Root", id := "root", children := ["gate"], params := {} },
    polled "gate" "ftff" "again",
    { kind := "Repeater", id := "again", children := ["work"], params := {} },
    steady "work"]

def silentVigil : Graph where
  nodes := [
    { kind := "Root", id := "root", children := ["gate"], params := {} },
    polled "gate" "ftf" "work", steady "work"]

end Rehearsal

theorem vigil_stays_closed : ∃ built, build rehearsed Rehearsal.vigil = .ok built ∧
    let session := built.fresh.run [.evaluate, .tick 0, .tick 0]
    ∃ part ∈ session.live.parts, part.tree.kind = .loopConditionNode ∧ ∃ wake : Wake,
      wake.node = part.tree.id ∧ ∀ kid ∈ (resume wake part.tree part.live session.cx).live.children,
        kid.live.Idle := by
  have failing : ((build rehearsed Rehearsal.vigil).toOption.map fun built =>
      let session := built.fresh.run [.evaluate, .tick 0, .tick 0]
      session.live.parts.any fun part => match part with
        | ⟨.gate _ _ .both _ child, .gate _ unit timer last _⟩ =>
          child.isQuiet && child.isSpeaking && timer.isSome && last = .failure &&
            (Rehearsal.poll unit session.cx.scene).answer = some false
        | _ => false) = some true := by decide +kernel
  cases ok : build rehearsed Rehearsal.vigil with
  | error _ => rw [ok] at failing; cases failing
  | ok built =>
    rw [ok] at failing
    obtain ⟨part, member, facts⟩ := List.any_eq_true.mp (Option.some.inj failing)
    obtain ⟨states, polls⟩ := failed_poll_leaves_nothing_running built.tree
    have weighed := parts_weighed ok _ part member
    obtain ⟨-, reached⟩ := states ⟨⟨[]⟩, built.blackboard⟩ (Sampler.ofSeed 0)
      [.evaluate, .tick 0, .tick 0] part member
    refine ⟨built, rfl, part, member, ?_⟩
    split at facts
    · rename_i label bound period child status unit timer last kid
      simp only [Bool.and_eq_true, decide_eq_true_eq] at facts
      obtain ⟨⟨⟨⟨quiet, speaking⟩, armed⟩, _⟩, fails⟩ := facts
      obtain ⟨task, held⟩ := Option.isSome_iff_exists.mp armed
      refine ⟨rfl, ⟨label.id, task⟩, rfl, ?_⟩
      exact ((polls status unit timer last kid _ (by rw [fails]; nofun)).2 ⟨label.id, task⟩ rfl
        held).2 reached (quiet_of_check child weighed quiet)
        (.inr (speaks_of_check child weighed speaking))
    · cases facts

/-- The third poll fails, and the work that the second one started goes on. -/
theorem silent_vigil_works_on : (build rehearsed Rehearsal.silentVigil).toOption.map
    (fun built =>
      let session := built.fresh.run [.evaluate, .tick 0, .tick 0]
      (session.cx.bench.calls, session.live.parts.any fun part =>
        part.tree.kind = .loopConditionNode && part.live.isActing)) =
    some ([(1, .poll (some false)), (1, .poll (some true)), (2, .act .start .ongoing),
      (2, .act .update .ongoing), (2, .act .update .ongoing), (1, .poll (some false))], true) := by
  decide +kernel

end Vigil

end ReactiveTree
