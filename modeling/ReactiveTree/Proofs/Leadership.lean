import ReactiveTree.Proofs.Accompaniment
import ReactiveTree.Proofs.Polling

/-!
A parallel node follows its main child. What it reports in a call is what main reported in that
call, and the background child has no say in it: a call that comes to the background child alone
changes neither the state nor what is reported, and when the node does not run, nothing does in the
background.
-/

namespace ReactiveTree

variable {H : Host} {label : Label} {main background : Tree H}

def Live.leader : Live H (.parallel label main background) → Live H main
  | .parallel _ first _ => first

/-- What main does in a call of the node, if the node activates or resumes it in that call. -/
def Visit.lead? : Visit H (.parallel label main background) → Option (Turn H (Live H main))
  | ⟨.evaluate, .parallel status first _, cx⟩ =>
    if status.isRunning then none
    else some (evaluate main first (cx.announce label .simpleParallel .running))
  | ⟨.resume wake, .parallel _ first _, cx⟩ =>
    if main.covers wake.node then some (resume wake main first cx) else none
  | ⟨.stop, _, _⟩ => none

/-- A call in which the node follows its main child. -/
structure Visit.Led (visit : Visit H (.parallel label main background)) : Prop where
  moves : ∀ turn, visit.lead? = some turn → visit.turn.live.leader = turn.live
  repeats : ∀ turn, visit.lead? = some turn → visit.turn.report = turn.report
  ends : ∀ turn status, visit.lead? = some turn → turn.report.getLast? = some status →
    visit.turn.live.status = status
  silent : visit.lead? = none → visit.turn.report = []
  unmoved : visit.lead? = none → visit.summons ≠ .stop →
    visit.turn.live.status = visit.live.status ∧ visit.turn.live.leader = visit.live.leader

theorem Visit.Led.ahead {visit : Visit H (.parallel label main background)}
    {turn : Turn H (Live H main)} (leads : visit.lead? = some turn) {missing : Status}
    {second : Live H background} {cx : Context H} (called : visit.turn =
      ⟨.parallel (turn.report.getLastD missing) turn.live second, cx, turn.report⟩) : visit.Led := by
  have only : ∀ turn', visit.lead? = some turn' → turn' = turn :=
    fun turn' leads' => Option.some.inj (leads'.symm.trans leads)
  constructor
  · intro turn' leads'
    rw [only turn' leads', called]
    rfl
  · intro turn' leads'
    rw [only turn' leads', called]
  · intro turn' status leads' last
    rw [only turn' leads'] at last
    rw [called, List.getLastD_eq_getLast?, last]
    rfl
  · exact fun never => nomatch never.symm.trans leads
  · exact fun never => nomatch never.symm.trans leads

theorem Visit.Led.aside {summons : Summons} {status : Status} {first : Live H main}
    {second after : Live H background} {cx cx' : Context H}
    {visit : Visit H (.parallel label main background)}
    (place : visit = ⟨summons, .parallel status first second, cx⟩) (unled : visit.lead? = none)
    (called : visit.turn = ⟨.parallel status first after, cx', []⟩) : visit.Led := by
  subst place
  constructor
  · exact fun turn leads => nomatch unled.symm.trans leads
  · exact fun turn leads => nomatch unled.symm.trans leads
  · exact fun turn status leads => nomatch unled.symm.trans leads
  · intro _
    rw [called]
  · intro _ _
    rw [called]
    exact ⟨rfl, rfl⟩

section Calls

variable (status : Status) (first : Live H main) (second : Live H background) (cx : Context H)

theorem evaluate_leads (idle : ¬ status.isRunning) :
    let turn := evaluate main first (cx.announce label .simpleParallel .running)
    ∃ after cx', evaluate (.parallel label main background) (.parallel status first second) cx =
      ⟨.parallel (turn.report.getLastD .running) turn.live after, cx', turn.report⟩ := by
  intro turn
  have said := accompany_report label (evaluate background) (stop background) turn.report second
    turn.cx
  rw [(evaluate_agrees main first _).orderly.reported] at said
  rw [evaluate, if_neg idle]
  dsimp only
  rw [said]
  split <;> exact ⟨_, _, rfl⟩

theorem resume_leads {wake : Wake} (covers : main.covers wake.node) :
    let turn := resume wake main first cx
    ∃ after cx', resume wake (.parallel label main background) (.parallel status first second) cx =
      ⟨.parallel (turn.report.getLastD status) turn.live after, cx', turn.report⟩ := by
  intro turn
  have said := accompany_report label (evaluate background) (stop background) turn.report second
    turn.cx
  rw [(resume_agrees wake main first cx).orderly.reported] at said
  rw [resume, if_pos covers]
  dsimp only
  rw [said]
  exact ⟨_, _, rfl⟩

theorem resume_unled {wake : Wake} (elsewhere : ¬ main.covers wake.node) :
    ∃ after cx', resume wake (.parallel label main background) (.parallel status first second) cx =
      ⟨.parallel status first after, cx', []⟩ := by
  rw [resume, if_neg elsewhere]
  split <;> exact ⟨_, _, rfl⟩

end Calls

theorem evaluate_led (live : Live H (.parallel label main background)) (cx : Context H) :
    Visit.Led ⟨.evaluate, live, cx⟩ := by
  cases live with
  | parallel status first second =>
    by_cases running : status.isRunning
    · have kept : evaluate (.parallel label main background) (.parallel status first second) cx = _ :=
        evaluate_of_running _ cx running
      exact .aside rfl (if_pos running) kept
    · obtain ⟨after, cx', called⟩ := evaluate_leads status first second cx running
      exact .ahead (if_neg running) called

theorem resume_led (wake : Wake) (live : Live H (.parallel label main background))
    (cx : Context H) : Visit.Led ⟨.resume wake, live, cx⟩ := by
  cases live with
  | parallel status first second =>
    by_cases covers : main.covers wake.node
    · obtain ⟨after, cx', called⟩ := resume_leads status first second cx covers
      exact .ahead (if_pos covers) called
    · obtain ⟨after, cx', called⟩ := resume_unled status first second cx covers
      exact .aside rfl (if_neg covers) called

theorem Visit.led (visit : Visit H (.parallel label main background)) : visit.Led := by
  obtain ⟨summons, live, cx⟩ := visit
  cases summons with
  | evaluate => exact evaluate_led live cx
  | resume wake => exact resume_led wake live cx
  | stop =>
    have unled : Visit.lead? ⟨.stop, live, cx⟩ = none := by cases live; rfl
    constructor
    · exact fun turn leads => nomatch unled.symm.trans leads
    · exact fun turn leads => nomatch unled.symm.trans leads
    · exact fun turn status leads => nomatch unled.symm.trans leads
    · exact fun _ => rfl
    · exact fun _ going => absurd rfl going

/-- Every call of a parallel node follows its main child. In a run of a built tree, between two
calls, unless the node runs, nothing runs or waits for a task in the background. -/
theorem main_leads_parallel {sources : Build.Sources H} {graph : Graph} {built : Built H}
    (ok : build sources graph = .ok built) (scene : Scene H.Target) (sampler : H.Sampler)
    (commands : List (Command H)) {status : Status} {first : Live H main}
    {second : Live H background} :
    let session := (Session.start built.tree scene sampler).run commands
    (∀ visit : Visit H (.parallel label main background), visit.Led) ∧
    (⟨.parallel label main background, .parallel status first second⟩ ∈ session.live.parts →
      (∃ visits : List (Visit H (.parallel label main background)),
        Life visits (.parallel status first second) session.cx) ∧
      (status ≠ .running → ∀ part ∈ second.parts,
        part.live.status = .waiting ∧ part.live.task? = none)) := by
  intro session
  refine ⟨Visit.led, fun member => ⟨?_, ?_⟩⟩
  · have numbered := (build_consecutive ok).1.numbered
    exact Session.run_lives numbered scene sampler commands _ member
  · intro still part below
    have reached := run_parts_reachable built.tree scene sampler commands _ member
    obtain ⟨waits, unheld, _⟩ := reached.reserved still part below
    exact ⟨waits, unheld⟩

def Rehearsal.race : Graph where
  nodes := [
    { kind := "Root", id := "root", children := ["race"], params := {} },
    { kind := "SimpleParallel", id := "race", children := ["run", "music"], params := {} },
    { kind := "ActionNode", id := "run", params := {
        unit := some "Act", inputs := [.literal "run", .literal "", .literal "-s", .literal ""] } },
    Rehearsal.steady "music"]

theorem race_ends_with_runner : ∃ built, build rehearsed Rehearsal.race = .ok built ∧
    let session := built.fresh.run [.evaluate, .tick 0]
    ∃ (label : Label) (main background : Tree Rehearsal) (first : Live Rehearsal main)
      (second : Live Rehearsal background),
      ⟨.parallel label main background, .parallel .success first second⟩ ∈ session.live.parts ∧
      (∃ visits : List (Visit Rehearsal (.parallel label main background)),
        Life visits (.parallel .success first second) session.cx ∧ ∀ visit ∈ visits, visit.Led) ∧
      ∀ part ∈ second.parts, part.live.status = .waiting ∧ part.live.task? = none := by
  have ends : ((build rehearsed Rehearsal.race).toOption.map fun built =>
      let session := built.fresh.run [.evaluate, .tick 0]
      session.live.parts.any fun part => match part with
        | ⟨_, .parallel .success _ _⟩ => true
        | _ => false) = some true := by decide +kernel
  cases ok : build rehearsed Rehearsal.race with
  | error _ => rw [ok] at ends; cases ends
  | ok built =>
    rw [ok] at ends
    obtain ⟨part, member, facts⟩ := List.any_eq_true.mp (Option.some.inj ends)
    refine ⟨built, rfl, ?_⟩
    split at facts
    · obtain ⟨led, runs⟩ := main_leads_parallel ok ⟨⟨[]⟩, built.blackboard⟩ (Sampler.ofSeed 0)
        [.evaluate, .tick 0]
      obtain ⟨⟨visits, life⟩, rests⟩ := runs member
      exact ⟨_, _, _, _, _, member, ⟨visits, life, fun visit _ => led visit⟩, rests (by decide)⟩
    · cases facts

end ReactiveTree
