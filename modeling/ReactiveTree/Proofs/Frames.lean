import Mathlib.Data.ENat.Lattice
import ReactiveTree.Proofs.Custody
import ReactiveTree.Proofs.Halting
import ReactiveTree.Proofs.Outcome
import ReactiveTree.Simulation

/-!
Runs over frames of one length. Every frame moves the clock by its length and counts as one for the
pawn, whatever the tree does in it, so a run is told by the number of its frames: the first one with
an outcome ends it, or else the limit does. A clock that leaves the range of times ends it before
either, and units that put another pawn in the place of theirs start its count anew.
-/

namespace ReactiveTree

namespace Pawn

structure Units.KeepFrame (units : Units) : Prop where
  poll : ∀ unit scene, (units.poll unit scene).scene.target.frame = scene.target.frame
  act : ∀ phase unit scene, (units.act phase unit scene).scene.target.frame = scene.target.frame

theorem outlasts_frame (count : Nat) : Outlasts fun pawn => pawn.frame = count where
  translate _ _ same := same
  rotate _ _ same := same
  draw _ _ same := same

theorem standard_keepFrame : standard.KeepFrame where
  poll unit scene := (standard_keep (outlasts_frame _)).poll unit scene rfl
  act phase unit scene := (standard_keep (outlasts_frame _)).act phase unit scene rfl

end Pawn

theorem steady_frame {units : Pawn.Units} (kept : units.KeepFrame) (count : Nat) :
    Context.Steady fun cx : Context units.host => cx.scene.target.frame = count := by
  have keeps : units.Keep fun pawn => pawn.frame = count :=
    ⟨fun unit scene same => (kept.poll unit scene).trans same,
      fun phase unit scene same => (kept.act phase unit scene).trans same⟩
  exact steady_pawn keeps

namespace Agent

variable {units : Pawn.Units} {tree : Tree units.host} (period : Nat) (agent : Agent tree)

def after : Nat → Agent tree
  | 0 => agent.start.1
  | count + 1 => ((after count).frame period).1

def now (agent : Agent tree) : Nat := agent.session.cx.agenda.now

variable {keeps : Context units.host → Prop}

theorem start_keeps (steady : Context.Steady keeps) (kept : keeps agent.session.cx) :
    keeps agent.start.1.session.cx :=
  Session.evaluate_keeps steady kept

theorem frame_keeps {delta : Nat} (steady : Context.Steady keeps)
    (kept : keeps
      ((agent.session.withTarget (agent.pawn.beginFrame delta)).advance delta).2.cx) :
    keeps (agent.frame delta).1.session.cx :=
  Session.tick_keeps steady kept

theorem shutdown_keeps (steady : Context.Steady keeps) (kept : keeps agent.session.cx) :
    keeps agent.shutdown.session.cx :=
  Session.stop_keeps_cx steady kept

theorem after_now (count : Nat) : (agent.after period count).now = agent.now + count * period := by
  induction count with
  | zero =>
    rw [Nat.zero_mul, Nat.add_zero]
    exact agent.start_keeps (steady_now agent.now) rfl
  | succ count ih =>
    rw [Nat.succ_mul, ← Nat.add_assoc, ← ih]
    exact (agent.after period count).frame_keeps (steady_now _) rfl

theorem after_pawn_frame (kept : units.KeepFrame) (count : Nat) :
    (agent.after period count).pawn.frame = agent.pawn.frame + count := by
  induction count with
  | zero => exact agent.start_keeps (steady_frame kept agent.pawn.frame) rfl
  | succ count ih =>
    rw [← Nat.add_assoc, ← ih]
    exact (agent.after period count).frame_keeps (steady_frame kept _) rfl

theorem overrun_of_le {early late : Nat} (order : early ≤ late)
    (overrun : (agent.after period early).overrun) : (agent.after period late).overrun := by
  induction order with
  | refl => exact overrun
  | step _ ih =>
    exact frame_keeps _ steady_overrun (Bool.or_eq_true_iff.mpr (.inl ih))

theorem outcome_of_le {early late : Nat} (order : early ≤ late) {outcome : Status}
    (known : (agent.after period early).outcome = some outcome) :
    (agent.after period late).outcome = some outcome := by
  induction order with
  | refl => exact known
  | @step late _ ih =>
    have recorded := answer_outcome (agent.after period late) (.frame period)
    rw [ih, Option.some_or] at recorded
    exact recorded

/-- There is a first frame after which the agent has an outcome, unless it never has one. -/
theorem exists_settles : ∃ settled : ℕ∞,
    ∀ count : ℕ, (agent.after period count).outcome = none ↔ (count : ℕ∞) < settled := by
  by_cases ends : ∃ count, (agent.after period count).outcome ≠ none
  · -- behind the first frame with an outcome there is one after every frame
    classical
    refine ⟨(Nat.find ends : ℕ), fun count => ?_⟩
    rw [Nat.cast_lt]
    constructor
    · intro unsettled
      by_contra later
      obtain ⟨outcome, known⟩ := Option.ne_none_iff_exists'.mp (Nat.find_spec ends)
      have stays := agent.outcome_of_le period (Nat.le_of_not_lt later) known
      exact nomatch unsettled.symm.trans stays
    · intro before
      by_contra settled
      exact Nat.find_min ends before settled
  · refine ⟨⊤, fun count => iff_of_true ?_ (ENat.natCast_lt_top count)⟩
    by_contra settled
    exact ends ⟨count, settled⟩

end Agent

namespace Simulation

variable {units : Pawn.Units} {tree : Tree units.host} {period limit : Nat} {agent : Agent tree}

/-- Why the agent may have no further frame. -/
inductive Stops (period limit : Nat) (agent : Agent tree) (count : Nat) : StopReason → Prop where
  | finished {outcome : Status} (ranged : ¬ (agent.after period count).overrun)
      (known : (agent.after period count).outcome = some outcome) :
      Stops period limit agent count (.finished outcome)
  | frameLimit (ranged : ¬ (agent.after period count).overrun)
      (unsettled : (agent.after period count).outcome = none) (last : count = limit) :
      Stops period limit agent count .frameLimit
  | clockOverrun (overrun : (agent.after period count).overrun) :
      Stops period limit agent count .clockOverrun

structure Ends (period limit : Nat) (agent : Agent tree) (ended : Ended tree) : Prop where
  stands : ended.agent = agent.after period ended.frames
  within : ended.frames ≤ limit
  before : ∀ count < ended.frames, (agent.after period count).outcome = none
  stops : Stops period limit agent ended.frames ended.reason

/-- The frames are tested in order, so that there is no outcome before the one they end with. -/
theorem frames_ends (left count : Nat)
    (before : ∀ early < count, (agent.after period early).outcome = none) :
    Ends period (count + left) agent
      (frames period false left count (agent.after period count)) := by
  have within : count ≤ count + left := Nat.le_add_right count left
  unfold frames
  split
  · rename_i overrun
    exact ⟨rfl, within, before, .clockOverrun overrun⟩
  · rename_i ranged
    split
    · rename_i outcome known
      exact ⟨rfl, within, before, .finished ranged known⟩
    · rename_i unsettled
      cases left with
      | zero => exact ⟨rfl, within, before, .frameLimit ranged unsettled rfl⟩
      | succ left =>
        have before' : ∀ early < count + 1, (agent.after period early).outcome = none := by
          intro early order
          rcases Nat.lt_succ_iff_lt_or_eq.mp order with less | rfl
          · exact before early less
          · exact unsettled
        rw [← Nat.succ_add_eq_add_succ]
        exact frames_ends left (count + 1) before'

namespace Ends

variable {ended : Ended tree} {settled : ℕ∞} (ends : Ends period limit agent ended)
  (settles : ∀ count : ℕ, (agent.after period count).outcome = none ↔ (count : ℕ∞) < settled)

include ends settles

theorem frames_le : (ended.frames : ℕ∞) ≤ min settled limit := by
  refine le_min ?_ (Nat.cast_le.mpr ends.within)
  by_contra later
  rw [not_le] at later
  lift settled to ℕ using later.ne_top
  exact lt_irrefl _ ((settles settled).mp (ends.before settled (Nat.cast_lt.mp later)))

theorem frames_eq (ranged : ended.reason ≠ .clockOverrun) :
    (ended.frames : ℕ∞) = min settled limit ∧
      ¬ (agent.after period ended.frames).overrun ∧
      (settled ≤ limit → ∃ outcome, (agent.after period ended.frames).outcome = some outcome ∧
        ended.reason = .finished outcome) ∧
      (limit < settled → ended.reason = .frameLimit) := by
  have bound := ends.frames_le settles
  have stops := ends.stops
  generalize ended.reason = reason at ranged stops
  cases stops with
  | @finished outcome inside known =>
    -- the outcome was set no later than this, and no earlier since the run went on until now
    have behind : settled ≤ ended.frames := by
      rw [← not_lt, ← settles, known]
      nofun
    refine ⟨le_antisymm bound ((min_le_left _ _).trans behind), inside,
      fun _ => ⟨outcome, known, rfl⟩, fun late => ?_⟩
    exact absurd (late.trans_le behind) (not_lt.mpr (Nat.cast_le.mpr ends.within))
  | frameLimit inside unsettled last =>
    have late := (settles ended.frames).mp unsettled
    rw [last] at late
    refine ⟨?_, inside, fun first => absurd late (not_lt.mpr first), fun _ => rfl⟩
    rw [last, min_eq_right late.le]
  | clockOverrun => exact absurd rfl ranged

theorem overrun_iff : ended.reason = .clockOverrun ↔
    ∃ count : ℕ, (count : ℕ∞) ≤ min settled limit ∧ (agent.after period count).overrun := by
  constructor
  · intro overran
    have stops := ends.stops
    rw [overran] at stops
    cases stops with
    | clockOverrun overrun => exact ⟨ended.frames, ends.frames_le settles, overrun⟩
  · rintro ⟨count, early, overrun⟩
    by_contra ranged
    obtain ⟨frames, inside, _⟩ := ends.frames_eq settles ranged
    rw [← frames, Nat.cast_le] at early
    exact inside (agent.overrun_of_le period early overrun)

end Ends

end Simulation

open Simulation

/-- The run of an agent under a frame limit. With the frame after which the agent first has an
outcome, if there is one, the run has the frames up to that one or to the limit, unless its clock
leaves the range of times in one of them. -/
theorem run_counts_frames {units : Pawn.Units} {tree : Tree units.host} (agent : Agent tree)
    (period limit : ℕ) :
    let ended := Simulation.run period (some limit) false agent
    ∃ settled : ℕ∞,
      (∀ count : ℕ, (agent.after period count).outcome = none ↔ (count : ℕ∞) < settled) ∧
      (ended.reason = .clockOverrun ↔
        ∃ count : ℕ, (count : ℕ∞) ≤ min settled limit ∧ (agent.after period count).overrun) ∧
      (ended.reason ≠ .clockOverrun → (ended.frames : ℕ∞) = min settled limit ∧
        (settled ≤ limit → ∃ outcome, (agent.after period ended.frames).outcome = some outcome ∧
          ended.reason = .finished outcome) ∧
        (limit < settled → ended.reason = .frameLimit)) ∧
      ended.agent = (agent.after period ended.frames).shutdown ∧
      (∀ count, (agent.after period count).now = agent.now + count * period) ∧
      ended.agent.now = agent.now + ended.frames * period ∧
      (units.KeepFrame → ended.agent.pawn.frame = agent.pawn.frame + ended.frames) ∧
      ∀ part ∈ ended.agent.session.live.parts, part.live.status = .waiting := by
  intro ended
  let driven := frames period false limit 0 agent.start.1
  have ends : Ends period limit agent driven := by
    have whole : Ends period (0 + limit) agent driven := frames_ends limit 0 nofun
    rwa [Nat.zero_add] at whole
  have stands : ended.agent = (agent.after period ended.frames).shutdown :=
    congrArg Agent.shutdown ends.stands
  obtain ⟨settled, settles⟩ := agent.exists_settles period
  refine ⟨settled, settles, ends.overrun_iff settles, ?_, stands, agent.after_now period, ?_, ?_,
    ?_⟩
  · intro ranged
    obtain ⟨frames, _, finished, limited⟩ := ends.frames_eq settles ranged
    exact ⟨frames, finished, limited⟩
  · rw [stands, ← agent.after_now period]
    exact Agent.shutdown_keeps _ (steady_now _) rfl
  · intro kept
    rw [stands, ← agent.after_pawn_frame period kept]
    exact Agent.shutdown_keeps _ (steady_frame kept _) rfl
  · intro part member
    exact (stop_dormant tree driven.agent.session.live driven.agent.session.cx part member).waits

section Treadmill

def Pawn.treadmill : Graph where
  nodes := [
    { kind := "Root", id := "root", children := ["repeat"], params := {} },
    { kind := "Repeater", id := "repeat", children := ["wait"], params := {} },
    { kind := "ActionNode", id := "wait", params := { unit := some "WaitOneFrame" } }]

theorem treadmill_builds : ∃ built, build piloted Pawn.treadmill = .ok built :=
  exists_built (by decide +kernel)

theorem treadmill_counts_frames : ∃ built, build piloted Pawn.treadmill = .ok built ∧
    let ended := Simulation.run (milliseconds 50) (some 3) false built.scout
    ended.reason = .frameLimit ∧ ended.frames = 3 ∧
      ended.agent.pawn.frame = built.scout.pawn.frame + 3 := by
  obtain ⟨built, ok⟩ := treadmill_builds
  have ran : ((build piloted Pawn.treadmill).toOption.map fun built =>
      let ended := Simulation.run (milliseconds 50) (some 3) false built.scout
      (ended.reason, ended.frames)) = some (.frameLimit, 3) := by decide +kernel
  rw [ok] at ran
  obtain ⟨limited, three⟩ := Prod.mk.inj (Option.some.inj ran)
  obtain ⟨_, _, _, _, _, _, _, counted, _⟩ := run_counts_frames built.scout (milliseconds 50) 3
  have counted := counted Pawn.standard_keepFrame
  rw [three] at counted
  exact ⟨built, ok, limited, three, counted⟩

/-- Units whose only action puts another pawn in the place of the one it is given. -/
def Pawn.replacing : Pawn.Units where
  Condition := Empty
  Action := Unit
  Sampler := Sampler
  poll := nofun
  act _ action scene := ⟨.ongoing, action, { scene with target := Pawn.seeded "stranger" 0 }⟩
  sample := Sampler.next

def Pawn.changeling : Agent (.action ⟨0, "replace"⟩ () : Tree Pawn.replacing.host) :=
  .new _ (Pawn.seeded "pawn" 0) {} (Sampler.ofSeed 0)

/-- With frames as long as the clock can show the second one leaves its range, though there is no
outcome yet, and a pawn that was replaced has not counted the frames. -/
theorem treadmill_leaves_clock :
    (∃ built, build piloted Pawn.treadmill = .ok built ∧ ∃ period, 0 < period ∧
      (∀ count ≤ 2, (built.scout.after period count).outcome = none) ∧
      (Simulation.run period (some 2) false built.scout).reason ≠ .frameLimit) ∧
    let ended := Simulation.run (milliseconds 50) (some 1) false Pawn.changeling
    ended.reason = .frameLimit ∧ ended.frames = 1 ∧
      ended.agent.pawn.frame ≠ Pawn.changeling.pawn.frame + 1 := by
  refine ⟨?_, by decide +kernel⟩
  obtain ⟨built, ok⟩ := treadmill_builds
  let period := (Nat.pow 2 64 - 1) * 1000000000
  have ran : ((build piloted Pawn.treadmill).toOption.map fun built =>
      ((built.scout.after period 2).outcome,
        (Simulation.run period (some 2) false built.scout).reason)) =
      some (none, .clockOverrun) := by decide +kernel
  rw [ok] at ran
  obtain ⟨unsettled, overran⟩ := Prod.mk.inj (Option.some.inj ran)
  refine ⟨built, ok, period, by decide, ?_, ?_⟩
  · intro count early
    by_contra settled
    obtain ⟨outcome, known⟩ := Option.ne_none_iff_exists'.mp settled
    exact nomatch unsettled.symm.trans (built.scout.outcome_of_le period early known)
  · rw [overran]
    nofun

end Treadmill

end ReactiveTree
