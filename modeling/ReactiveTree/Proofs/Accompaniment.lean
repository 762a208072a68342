import ReactiveTree.Proofs.Gatekeeping
import ReactiveTree.Proofs.Halting

/-!
The background child in the call that activates a parallel node. The node goes through the report of
its main child when main is back already, so a main child that ran for a moment and ended has the
background child started and stopped again. A main child that says nothing but its verdict leaves
the background child alone: that one is dormant for as long as the node does not run, and to stop
it once more does nothing.
-/

namespace ReactiveTree

variable {H : Host}

mutual

theorem initial_dormant : (tree : Tree H) → ∀ part ∈ (Live.initial tree).parts, part.Dormant
  | .relay _ _ child | .repeater _ child | .loop _ _ child | .gate _ _ _ _ child =>
    List.forall_mem_cons.mpr ⟨⟨rfl, rfl, rfl⟩, initial_dormant child⟩
  | .ordered _ _ children | .weighted _ _ children =>
    List.forall_mem_cons.mpr ⟨⟨rfl, rfl, rfl⟩, initial_dormant_all children⟩
  | .parallel _ main background =>
    List.forall_mem_cons.mpr ⟨⟨rfl, rfl, rfl⟩, List.forall_mem_append.mpr
      ⟨initial_dormant main, initial_dormant background⟩⟩
  | .condition _ _ | .action _ _ => List.forall_mem_singleton.mpr ⟨rfl, rfl, rfl⟩

theorem initial_dormant_all : (trees : Forest H) →
    ∀ part ∈ (LiveForest.initial trees).parts, part.Dormant
  | .nil => List.forall_mem_nil _
  | .cons tree trees =>
    List.forall_mem_append.mpr ⟨initial_dormant tree, initial_dormant_all trees⟩

end

theorem unheld_of_dormant {tree : Tree H} {live : Live H tree}
    (dormant : ∀ part ∈ live.parts, part.Dormant) : live.handles = [] := by
  rw [handles_eq, List.flatMap_eq_nil_iff]
  intro part member
  rw [Part.holds, (dormant part member).unheld]
  rfl

section Reserve

variable {label : Label} {main background : Tree H}

/-- The background child is dormant unless the node runs. -/
def Live.Reserved : Live H (.parallel label main background) → Prop
  | .parallel status _ second => status ≠ .running → ∀ part ∈ second.parts, part.Dormant

theorem accompany_dormant {report : Report} (orderly : report.Orderly) (ended : ¬ report.Lasts)
    (second : Live H background) (cx : Context H) :
    ∀ part ∈ (accompany label (evaluate background) (stop background) report second cx).live.parts,
      part.Dormant :=
  accompany_ended (fun kid => ∀ part ∈ kid.parts, part.Dormant) (stop_dormant background) orderly
    ended second cx

theorem evaluate_reserved (live : Live H (.parallel label main background)) (cx : Context H)
    (reserved : live.Reserved) : (evaluate _ live cx).live.Reserved := by
  cases live with
  | parallel status first second =>
    have orderly := (evaluate_agrees main first (cx.announce label .simpleParallel .running)).orderly
    rw [evaluate]
    split
    · exact reserved
    · dsimp only
      rw [accompany_report, orderly.reported]
      split
      · rename_i runs
        exact fun still => absurd (isRunning_iff.mp runs) still
      · rename_i ended
        exact fun _ => accompany_dormant orderly (mt isRunning_iff.mpr ended) second _

theorem resume_reserved (wake : Wake) (live : Live H (.parallel label main background))
    (cx : Context H) (reserved : live.Reserved) : (resume wake _ live cx).live.Reserved := by
  cases live with
  | parallel status first second =>
    have orderly := (resume_agrees wake main first cx).orderly
    rw [resume]
    split
    · dsimp only
      rw [accompany_report, orderly.reported]
      intro still
      by_cases silent : (resume wake main first cx).report = []
      · rw [silent] at still ⊢
        exact reserved still
      · exact accompany_dormant orderly (fun lasts => still (last_of_lasts lasts silent)) _ _
    · split
      · intro still
        rw [resume_unheld wake background second cx (unheld_of_dormant (reserved still))]
        exact reserved still
      · exact reserved

theorem Live.Reachable.reserved {live : Live H (.parallel label main background)}
    (reached : live.Reachable) : live.Reserved := by
  induction reached with
  | fresh => exact fun _ => initial_dormant background
  | activated cx _ ih => exact evaluate_reserved _ cx ih
  | woken wake cx _ ih => exact resume_reserved wake _ cx ih
  | @stopped live cx _ _ =>
    cases live with
    | parallel status first second => exact fun _ => stop_dormant background second _

end Reserve

section Journals

theorem visit_events {tree : Tree H} (live : Live H tree) (cx : Context H) (summons : Summons) :
    cx.events <+: (live.visit cx summons).cx.events := by
  obtain ⟨_, new, _, journal, _⟩ := visit_writes live cx summons []
  refine ⟨new.reverse, ?_⟩
  rw [Context.events, Context.events, journal, List.reverse_append]

theorem announce_events (cx : Context H) (label : Label) (kind : NodeKind) (status : Status) :
    cx.events <+: (cx.announce label kind status).events := by
  rw [Context.announce, Context.events_record]
  exact List.prefix_append _ _

theorem accompany_events (label : Label) (background : Tree H) (report : Report)
    (second : Live H background) (cx : Context H) : cx.events <+:
      (accompany label (evaluate background) (stop background) report second cx).cx.events := by
  induction report generalizing second cx with
  | nil => exact List.prefix_rfl
  | cons status report ih =>
    have called (summons : Summons) :=
      (visit_events second cx summons).trans (announce_events _ label .simpleParallel status)
    cases status with
    | success | failure => exact (called .stop).trans (ih _ _)
    | running => exact (called .evaluate).trans (ih _ _)
    | _ => exact ih second cx

end Journals

theorem Report.Orderly.ended {report : Report} (orderly : report.Orderly)
    (ends : ∃ verdict ∈ report, verdict.isTerminal) : ∃ steps success,
    report = List.replicate steps .running ++ [Status.ofBool success] := by
  obtain ⟨steps, verdict, rfl⟩ := (Report.orderly_iff report).mp orderly
  cases verdict with
  | some success => exact ⟨steps, success, rfl⟩
  | none =>
    obtain ⟨status, member, terminal⟩ := ends
    rw [Option.map_none, Option.toList_none, List.append_nil] at member
    rw [List.eq_of_mem_replicate member] at terminal
    cases terminal

section Activation

variable {label : Label} {main background : Tree H} {status : Status} {first : Live H main}
  {second : Live H background}

theorem accompany_verdict (dormant : ∀ part ∈ second.parts, part.Dormant) (success : Bool)
    (cx : Context H) :
    accompany label (evaluate background) (stop background) [Status.ofBool success] second cx =
      ⟨second, cx.announce label .simpleParallel (.ofBool success), [.ofBool success]⟩ := by
  have halted := stop_of_dormant background second cx dormant
  cases success <;>
    simp [accompany, Status.ofBool, Status.isTerminal, Turn.after, halted]

theorem evaluate_ended (idle : status ≠ .running) (cx : Context H) :
    let turn := evaluate main first (cx.announce label .simpleParallel .running)
    let beside := accompany label (evaluate background) (stop background) turn.report second turn.cx
    ¬ turn.report.Lasts →
    evaluate (.parallel label main background) (.parallel status first second) cx =
      ⟨.parallel (turn.report.getLastD .running) turn.live beside.live, beside.cx, turn.report⟩ := by
  intro turn beside ended
  have repeats : beside.report = turn.report := by
    rw [accompany_report, (evaluate_agrees main first _).orderly.reported]
  rw [evaluate, if_neg (not_isRunning idle)]
  dsimp only
  rw [if_neg, repeats]
  rw [repeats]
  exact not_isRunning ended

/-- In a call in which main ends, the background child is activated if main said before that it
runs, and stopped again. Otherwise the call does no more than main and the verdict of the node. -/
theorem background_spared_unless_main_runs
    (reached : (.parallel status first second : Live H (.parallel label main background)).Reachable)
    (idle : status ≠ .running) (cx : Context H) :
    let turn := evaluate main first (cx.announce label .simpleParallel .running)
    let call := evaluate (.parallel label main background) (.parallel status first second) cx
    (∃ verdict ∈ turn.report, verdict.isTerminal) →
    ∃ (success : Bool) (after : Live H background),
      call.live = .parallel (.ofBool success) turn.live after ∧ call.report = turn.report ∧
      (∀ part ∈ after.parts, part.Dormant) ∧
      (.running ∉ turn.report → after = second ∧
        call.cx = turn.cx.announce label .simpleParallel (.ofBool success)) ∧
      (.running ∈ turn.report →
        (evaluate background second turn.cx).cx.events <+: call.cx.events) := by
  intro turn call ends
  have orderly : turn.report.Orderly := (evaluate_agrees main first _).orderly
  have dormant : ∀ part ∈ second.parts, part.Dormant := reached.reserved idle
  obtain ⟨steps, success, said⟩ := orderly.ended ends
  have last : turn.report.getLastD .running = Status.ofBool success := by
    rw [said, List.getLastD_eq_getLast?, List.getLast?_append]
    rfl
  have ended : ¬ turn.report.Lasts := by
    rw [Report.Lasts, last]
    cases success <;> decide
  have made : call = _ := evaluate_ended idle cx ended
  rw [made, last]
  refine ⟨success, _, rfl, rfl, accompany_dormant orderly ended second turn.cx, ?_, ?_⟩
  · intro never
    cases steps with
    | zero =>
      rw [said, List.replicate_zero, List.nil_append, accompany_verdict dormant]
      exact ⟨rfl, rfl⟩
    | succ steps => exact absurd (said ▸ List.mem_cons_self) never
  · intro ran
    cases steps with
    | zero =>
      rw [said] at ran
      cases success <;> cases List.mem_singleton.mp ran
    | succ steps =>
      rw [said]
      exact (announce_events _ label .simpleParallel .running).trans
        (accompany_events label background _ _ _)

end Activation

section Concert

namespace Rehearsal

def tune (id : Nat) : Tree Rehearsal :=
  .condition ⟨id, "tune"⟩ (scripted "tune" "t")

def music : Tree Rehearsal :=
  .action ⟨3, "music"⟩ (acted "music" "-" "-" "-")

def concert (main : Tree Rehearsal) : Tree Rehearsal :=
  .parallel ⟨0, "concert"⟩ main music

def stage : Context Rehearsal := ⟨⟨⟨[]⟩, {}⟩, {}, Sampler.ofSeed 0, []⟩

def overture (main : Tree Rehearsal) : Turn Rehearsal (Live Rehearsal main) :=
  evaluate main (Live.initial main) (stage.announce ⟨0, "concert"⟩ .simpleParallel .running)

end Rehearsal

open Rehearsal

theorem tune_spares_music :
    let turn := overture (tune 1)
    let call := evaluate (concert (tune 1)) (Live.initial (concert (tune 1))) stage
    (Live.initial (concert (tune 1))).Reachable ∧ Status.waiting ≠ .running ∧
      (∃ verdict ∈ turn.report, verdict.isTerminal) ∧ .running ∉ turn.report ∧
      ∃ success, call.live = .parallel (.ofBool success) turn.live (Live.initial music) ∧
        call.cx = turn.cx.announce ⟨0, "concert"⟩ .simpleParallel (.ofBool success) := by
  intro turn call
  have ends : ∃ verdict ∈ turn.report, verdict.isTerminal := by decide +kernel
  have never : .running ∉ turn.report := by decide +kernel
  obtain ⟨success, after, live, _, _, spared, _⟩ :=
    background_spared_unless_main_runs .fresh (by decide) stage ends
  obtain ⟨rfl, same⟩ := spared never
  exact ⟨.fresh, by decide, ends, never, success, live, same⟩

/-- A sequencer says that it runs before its verdict, even if it has that at once. -/
theorem sequencer_starts_music :
    let main : Tree Rehearsal := .ordered .sequencer ⟨1, "prelude"⟩ (.cons (tune 2) .nil)
    let call := evaluate (concert main) (Live.initial (concert main)) stage
    (overture main).report = [.running, .success] ∧ call.report = [.running, .success] ∧
      call.cx.bench.calls = [(2, .poll (some true)), (3, .act .start .ongoing),
        (3, .act .update .ongoing), (3, .act .stop .ongoing)] := by
  decide +kernel

end Concert

end ReactiveTree
