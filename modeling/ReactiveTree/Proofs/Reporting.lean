import ReactiveTree.Proofs.Construction
import ReactiveTree.Session

/-!
What a node may report in one call: that it runs, any number of times, and then at most one verdict.
A parent stops reading at the first verdict, so a report that went on behind it would lose its rest.
The state of a node follows its report, except that a fault of its own unit is reported as a failure
and shows as a warning.
-/

namespace ReactiveTree

variable {H : Host} {σ : Type}

/-- Running, any number of times, and then at most one verdict. -/
inductive Report.Orderly : Report → Prop where
  | silent : Orderly []
  | verdict (success : Bool) : Orderly [Status.ofBool success]
  | running {report : Report} : Orderly report → Orderly (.running :: report)

/-- The report and the state after a call that found the node in state `prior`, where `faulted` says
that the unit of the node itself faulted. -/
structure Report.Agrees (prior : Status) (faulted : Prop) (report : Report) (after : Status) :
    Prop where
  orderly : report.Orderly
  follows : ¬ faulted → after = report.getLastD prior
  warns : faulted → report.getLast? = some .failure ∧ after = .warning

def Live.FaultsOnEvaluate {tree : Tree H} (live : Live H tree) (scene : Scene H.Target) : Prop :=
  match live with
  | .gate status unit _ _ _ | .condition status unit =>
    status ≠ .running ∧ (H.poll unit scene).answer = none
  | .action status unit _ =>
    let started := H.act .start unit scene
    let updated := H.act .update started.unit started.scene
    status ≠ .running ∧
      (started.answer = .faulted ∨ started.answer = .ongoing ∧ updated.answer = .faulted)
  | _ => False

/-- The wake is for a task that the node holds, and the unit of the node faults. -/
def Live.FaultsOnResume {tree : Tree H} (wake : Wake) (live : Live H tree)
    (scene : Scene H.Target) : Prop :=
  match live with
  | .gate _ unit timer _ _ =>
    wake.node = tree.id ∧ timer = some wake.task ∧ (H.poll unit scene).answer = none
  | .action _ unit task =>
    wake.node = tree.id ∧ task = some wake.task ∧ (H.act .update unit scene).answer = .faulted
  | _ => False

namespace Report

theorem orderly_iff (report : Report) :
    report.Orderly ↔ ∃ (steps : Nat) (verdict : Option Bool),
      report = List.replicate steps .running ++ (verdict.map Status.ofBool).toList := by
  constructor
  · intro orderly
    induction orderly with
    | silent => exact ⟨0, none, rfl⟩
    | verdict success => exact ⟨0, some success, rfl⟩
    | running _ ih =>
      obtain ⟨steps, verdict, same⟩ := ih
      exact ⟨steps + 1, verdict, by rw [same, List.replicate_succ, List.cons_append]⟩
  · rintro ⟨steps, verdict, rfl⟩
    induction steps with
    | zero =>
      cases verdict with
      | none => exact .silent
      | some success => exact .verdict success
    | succ steps ih => exact .running ih

theorem orderly_terminal {status : Status} (terminal : status.isTerminal) : Orderly [status] := by
  cases status with
  | success => exact .verdict true
  | failure => exact .verdict false
  | _ => cases terminal

theorem Orderly.append {first rest : Report} (unfinished : ∀ status ∈ first, status = .running)
    (orderly : rest.Orderly) : (first ++ rest).Orderly := by
  induction first with
  | nil => exact orderly
  | cons status first ih =>
    obtain ⟨rfl, later⟩ := List.forall_mem_cons.mp unfinished
    exact .running (ih later)

theorem Orderly.reported {report : Report} (orderly : report.Orderly) :
    report.filter Status.isReported = report := by
  induction orderly with
  | silent => rfl
  | verdict success => cases success <;> rfl
  | running _ ih => rw [List.filter_cons_of_pos rfl, ih]

theorem Orderly.hand {report : Report} (orderly : report.Orderly) (role : Relay) :
    Orderly (role.hand report) := by
  cases role with
  | root | function =>
    induction orderly with
    | silent => exact .silent
    | verdict success => cases success <;> exact orderly_terminal rfl
    | running _ ih => exact ih
  | inverse =>
    induction orderly with
    | silent => exact .silent
    | verdict success => cases success <;> exact orderly_terminal rfl
    | running _ ih => exact .running ih

theorem Orderly.hand_root {report : Report} (orderly : report.Orderly) :
    Relay.root.hand report = [] ∨ ∃ success, Relay.root.hand report = [Status.ofBool success] := by
  induction orderly with
  | silent => exact .inl rfl
  | verdict success => exact .inr ⟨success, by cases success <;> rfl⟩
  | running _ ih => exact ih

def Lasts (report : Report) : Prop := report.getLastD .running = .running

theorem lasts_of_last {report : Report} {prior : Status} (last : report.getLastD prior = .running) :
    report.Lasts := by
  cases report with
  | nil => rfl
  | cons status report => exact last

theorem lasts_append {first rest : Report} {prior : Status}
    (last : (first ++ rest).getLastD prior = .running) : rest.Lasts := by
  cases rest with
  | nil => rfl
  | cons status rest =>
    rw [List.getLastD_eq_getLast?, List.getLast?_append, List.getLast?_cons] at last
    rwa [Lasts, List.getLastD_eq_getLast?, List.getLast?_cons]

theorem Orderly.lasts_of_terminal {report : Report} (orderly : report.Orderly)
    (unended : report.terminal? = none) : report.Lasts := by
  have no_verdict : ∀ status ∈ report, ¬ status.isTerminal := by
    intro status member
    have unfound := List.find?_eq_none.mp unended status (List.mem_reverse.mpr member)
    exact unfound
  induction orderly with
  | silent => rfl
  | verdict success => cases success <;> exact absurd rfl (no_verdict _ (List.mem_singleton_self _))
  | @running report _ ih =>
    have rest : report.Lasts := by
      apply ih
      · exact List.find?_eq_none.mpr fun status member =>
          no_verdict status (List.mem_cons_of_mem _ (List.mem_reverse.mp member))
      · exact fun status member => no_verdict status (List.mem_cons_of_mem _ member)
    rwa [Lasts, List.getLastD_cons]

/-- A relay that does not see its child end has a child that did not end. -/
theorem Orderly.lasts_of_hand {report : Report} (orderly : report.Orderly) {role : Relay}
    {prior : Status} (last : (role.hand report).getLastD prior = .running) : report.Lasts := by
  induction orderly generalizing prior with
  | silent => rfl
  -- every relay hands a verdict on, inverted or not
  | verdict success => cases role <;> cases success <;> cases last
  | @running report _ ih =>
    have rest : report.Lasts := by
      cases role with
      | root | function => exact ih last
      | inverse => exact ih (List.getLastD_cons.symm.trans last)
    rwa [Lasts, List.getLastD_cons]

theorem Agrees.running {prior after : Status} {faulted : Prop} {report : Report}
    (agrees : report.Agrees prior faulted after) (lasts : report.Lasts)
    (silent : report = [] → prior = .running) : after = .running := by
  by_cases fault : faulted
  · obtain ⟨failed, _⟩ := agrees.warns fault
    rw [Lasts, List.getLastD_eq_getLast?, failed] at lasts
    cases lasts
  · rw [agrees.follows fault]
    cases report with
    | nil => exact silent rfl
    | cons status report => exact lasts

end Report

open Report

theorem Report.Orderly.agrees_of_sound {prior : Status} {report : Report} {faulted : Prop}
    (orderly : report.Orderly) (sound : ¬ faulted) :
    report.Agrees prior faulted (report.getLastD prior) :=
  ⟨orderly, fun _ => rfl, fun fault => absurd fault sound⟩

theorem Report.Orderly.agrees {prior : Status} {report : Report} (orderly : report.Orderly) :
    report.Agrees prior False (report.getLastD prior) :=
  orderly.agrees_of_sound id

section Rules

theorem react_orderly (order : Order) (label : Label) (halt : σ → Context H → Stopped H σ)
    {report : Report} (orderly : report.Orderly) (later : σ) (cx : Context H) :
    (order.react label halt report later cx).report.Orderly ∧
      ((order.react label halt report later cx).advances →
        ∀ status ∈ (order.react label halt report later cx).report, status = .running) := by
  induction orderly generalizing later cx with
  | silent => exact ⟨.silent, fun advances => by cases advances⟩
  | verdict success =>
    cases order <;> cases success <;>
      simp [Order.react, Status.ofBool, Orderly.silent, orderly_terminal, Status.isTerminal,
        Orderly.running]
  | running _ ih =>
    cases order with
    | selector =>
      have rest := ih (halt later cx).live
        ((halt later cx).cx.announce label .selector .running)
      exact ⟨.running rest.1, fun advances => List.forall_mem_cons.mpr ⟨rfl, rest.2 advances⟩⟩
    | sequencer =>
      have rest := ih later (cx.announce label .sequencer .running)
      exact ⟨.running rest.1, fun advances => List.forall_mem_cons.mpr ⟨rfl, rest.2 advances⟩⟩

/-- An ordered node that stays with a child and does not end has a child that did not end. -/
theorem react_lasts {order : Order} {label : Label} {halt : σ → Context H → Stopped H σ}
    {report : Report} (orderly : report.Orderly) {later : σ} {cx : Context H} {prior : Status}
    (stays : ¬ (order.react label halt report later cx).advances)
    (last : (order.react label halt report later cx).report.getLastD prior = .running) :
    report.Lasts := by
  induction orderly generalizing later cx prior with
  | silent => rfl
  | verdict success =>
    cases order <;> cases success <;> first | exact absurd rfl stays | cases last
  | @running report _ ih =>
    have rest : report.Lasts := by
      cases order <;> exact ih stays (List.getLastD_cons.symm.trans last)
    rwa [Lasts, List.getLastD_cons]

theorem accompany_report (label : Label) (activate : σ → Context H → Turn H σ)
    (halt : σ → Context H → Stopped H σ) (report : Report) (background : σ) (cx : Context H) :
    (accompany label activate halt report background cx).report =
      report.filter Status.isReported := by
  induction report generalizing background cx with
  | nil => rfl
  | cons status report ih => cases status <;> simp [accompany, Turn.after, Status.isTerminal,
      Status.isRunning, Status.isReported, ih]

theorem exhausted_orderly (order : Order) : Orderly [order.exhausted] := by
  cases order with
  | selector => exact .verdict false
  | sequencer => exact .verdict true

theorem runCondition_agrees (label : Label) (unit : H.Condition) (cx : Context H)
    (prior : Status) :
    Report.Agrees prior ((H.poll unit cx.scene).answer = none)
      (runCondition label unit cx).answer.2 (runCondition label unit cx).answer.1 := by
  simp only [runCondition, Context.poll, Context.announce_scene]
  cases answer : (H.poll unit cx.scene).answer with
  | none => exact ⟨.verdict false, fun sound => absurd rfl sound, fun _ => ⟨rfl, rfl⟩⟩
  | some success => exact ⟨.verdict success, fun _ => rfl, fun fault => by cases fault⟩

theorem stepAction_agrees (label : Label) (phase : Phase) (status : Status) (unit : H.Action)
    (task : Option Nat) (cx : Context H) :
    Report.Agrees status ((H.act phase unit cx.scene).answer = .faulted)
      (stepAction label phase status unit task cx).report
      (stepAction label phase status unit task cx).status := by
  simp only [stepAction, Context.act]
  cases answer : (H.act phase unit cx.scene).answer with
  | ongoing => exact ⟨.silent, fun _ => rfl, fun fault => by cases fault⟩
  | finished success => exact ⟨.verdict success, fun _ => rfl, fun fault => by cases fault⟩
  | faulted => exact ⟨.verdict false, fun sound => absurd rfl sound, fun _ => ⟨rfl, rfl⟩⟩

theorem startAction_agrees (label : Label) (unit : H.Action) (task : Option Nat) (cx : Context H) :
    Report.Agrees .running
      (let started := H.act .start unit cx.scene
       let updated := H.act .update started.unit started.scene
       started.answer = .faulted ∨ started.answer = .ongoing ∧ updated.answer = .faulted)
      (startAction label unit task cx).report (startAction label unit task cx).status := by
  simp only [startAction, stepAction, Context.act, Context.announce_scene, Context.cancel_scene]
  cases start : (H.act .start unit cx.scene).answer with
  | finished success =>
    cases success <;>
      exact ⟨orderly_terminal rfl, fun _ => rfl, fun fault => by simp at fault⟩
  | faulted => exact ⟨.verdict false, fun sound => absurd (.inl rfl) sound, fun _ => ⟨rfl, rfl⟩⟩
  | ongoing =>
    cases update : (H.act .update (H.act .start unit cx.scene).unit
        (H.act .start unit cx.scene).scene).answer with
    | ongoing => exact ⟨.silent, fun _ => rfl, fun fault => by simp at fault⟩
    | finished success =>
      cases success <;> exact ⟨orderly_terminal rfl, fun _ => rfl, fun fault => by simp at fault⟩
    | faulted =>
      exact ⟨.verdict false, fun sound => absurd (.inr ⟨rfl, rfl⟩) sound, fun _ => ⟨rfl, rfl⟩⟩

theorem pollGate_agrees (label : Label) (mode : PollMode) (period : Nat)
    (activate : σ → Context H → Turn H σ) (halt : σ → Context H → Stopped H σ) (status : Status)
    (unit : H.Condition) (last : Status) (kid : σ) (cx : Context H)
    (active : ∀ kid cx, (activate kid cx).report.Orderly) :
    let polled := pollGate label mode period activate halt status unit last kid cx
    Report.Agrees status ((H.poll unit cx.scene).answer = none) polled.report polled.status := by
  -- a poll that is answered is no fault, whatever the gate makes of the answer
  have sound {success : Bool} (answered : (cx.poll label unit).answer = some success)
      {report : Report} {after : Status} (orderly : report.Orderly)
      (follows : after = report.getLastD status) :
      report.Agrees status ((cx.poll label unit).answer = none) after :=
    ⟨orderly, fun _ => follows, fun fault => by simp [answered] at fault⟩
  match answer : (cx.poll label unit).answer with
  | none =>
    rw [pollGate_faulted answer]
    exact ⟨.verdict false, fun sound => absurd answer sound, fun _ => ⟨rfl, rfl⟩⟩
  | some true =>
    by_cases succeeded : last = .success
    · rw [pollGate_content answer succeeded]
      exact sound answer .silent rfl
    · rw [pollGate_opens answer succeeded]
      refine sound answer (.running ?_) List.getLastD_cons.symm
      rw [(active _ _).reported]
      exact active _ _
  | some false =>
    by_cases failed : last = .failure
    · rw [pollGate_closed answer failed]
      exact sound answer .silent rfl
    · rw [pollGate_closes answer failed]
      exact sound answer (.verdict false) rfl

end Rules

theorem evaluate_agrees_of_running {tree : Tree H} (live : Live H tree) (cx : Context H)
    (running : live.isRunning) :
    Report.Agrees .running (live.FaultsOnEvaluate cx.scene)
      (evaluate tree live cx).report (evaluate tree live cx).live.status := by
  rw [evaluate_of_running live cx running]
  have status : live.status = .running := of_decide_eq_true running
  refine ⟨.silent, fun _ => status, fun fault => ?_⟩
  -- the units are called only by nodes that did not run
  cases live <;> first | exact fault.elim | exact absurd status fault.1

mutual

theorem evaluate_agrees : (tree : Tree H) → (live : Live H tree) → (cx : Context H) →
    Report.Agrees .running (live.FaultsOnEvaluate cx.scene)
      (evaluate tree live cx).report (evaluate tree live cx).live.status
  | .relay role label child, .relay status kid, cx => by
    by_cases active : status.isRunning
    · exact evaluate_agrees_of_running (.relay status kid) cx active
    · rw [evaluate, if_neg active]
      exact ((evaluate_agrees child kid _).orderly.hand role).agrees
  | .repeater label child, .repeater status deferred kid, cx => by
    by_cases active : status.isRunning
    · exact evaluate_agrees_of_running (.repeater status deferred kid) cx active
    · rw [evaluate, if_neg active]
      exact (Orderly.running .silent).agrees
  | .loop label period child, .loop status timer kid, cx => by
    by_cases active : status.isRunning
    · exact evaluate_agrees_of_running (.loop status timer kid) cx active
    · rw [evaluate, if_neg active]
      exact (Orderly.running .silent).agrees
  | .gate label bound mode period child, .gate status unit timer last kid, cx => by
    by_cases active : status.isRunning
    · exact evaluate_agrees_of_running (.gate status unit timer last kid) cx active
    · rw [evaluate, if_neg active]
      have idle : status ≠ .running := fun same => active (decide_eq_true same)
      have polled := pollGate_agrees label mode period (evaluate child) (stop child) .running unit
        .running kid ((cx.cancel timer).announce label .loopConditionNode .running)
        fun kid cx => (evaluate_agrees child kid cx).orderly
      simpa [Live.FaultsOnEvaluate, Live.status, idle] using polled
  | .ordered order label children, .ordered status kids, cx => by
    by_cases active : status.isRunning
    · exact evaluate_agrees_of_running (.ordered status kids) cx active
    · rw [evaluate, if_neg active]
      exact (runFrom_orderly order label children kids _).agrees
  | .weighted label bounds children, .weighted status selected kids, cx => by
    by_cases active : status.isRunning
    · exact evaluate_agrees_of_running (.weighted status selected kids) cx active
    · rw [evaluate, if_neg active]
      have heard := evaluateAt_orderly children (Weights.pick bounds
        (cx.announce label .weightedRandomSelector .running).draw.1) kids
        (cx.announce label .weightedRandomSelector .running).draw.2
      rw [← heard.reported] at heard
      exact heard.agrees
  | .parallel label main background, .parallel status first second, cx => by
    by_cases active : status.isRunning
    · exact evaluate_agrees_of_running (.parallel status first second) cx active
    · rw [evaluate, if_neg active]
      have heard := (evaluate_agrees main first
        (cx.announce label .simpleParallel .running)).orderly
      dsimp only
      split <;> simp only [Live.status, accompany_report, heard.reported] <;> exact heard.agrees
  | .condition label bound, .condition status unit, cx => by
    by_cases active : status.isRunning
    · exact evaluate_agrees_of_running (.condition status unit) cx active
    · rw [evaluate, if_neg active]
      have idle : status ≠ .running := fun same => active (decide_eq_true same)
      simpa [Live.FaultsOnEvaluate, Live.status, idle] using runCondition_agrees label unit cx .running
  | .action label bound, .action status unit task, cx => by
    by_cases active : status.isRunning
    · exact evaluate_agrees_of_running (.action status unit task) cx active
    · rw [evaluate, if_neg active]
      have idle : status ≠ .running := fun same => active (decide_eq_true same)
      simpa [Live.FaultsOnEvaluate, Live.status, idle] using startAction_agrees label unit task cx

theorem runFrom_orderly (order : Order) (label : Label) : (trees : Forest H) →
    (lives : LiveForest H trees) → (cx : Context H) →
    (runFrom order label trees lives cx).report.Orderly
  | .nil, .nil, cx => exhausted_orderly order
  | .cons tree trees, .cons head tail, cx => by
    have heard := react_orderly order label (stopAll trees)
      (evaluate_agrees tree head cx).orderly tail (evaluate tree head cx).cx
    rw [runFrom]
    dsimp only
    split
    · rename_i advances
      exact .append (heard.2 advances) (runFrom_orderly order label trees _ _)
    · exact heard.1

theorem evaluateAt_orderly : (trees : Forest H) → (index : Nat) → (lives : LiveForest H trees) →
    (cx : Context H) → (evaluateAt trees index lives cx).report.Orderly
  | .nil, _, .nil, _ => .silent
  | .cons tree _, 0, .cons head _, cx => (evaluate_agrees tree head cx).orderly
  | .cons _ trees, index + 1, .cons _ tail, cx => evaluateAt_orderly trees index tail cx

end

mutual

theorem resume_agrees (wake : Wake) : (tree : Tree H) → (live : Live H tree) → (cx : Context H) →
    Report.Agrees live.status (live.FaultsOnResume wake cx.scene)
      (resume wake tree live cx).report (resume wake tree live cx).live.status
  | .relay role label child, .relay status kid, cx => by
    rw [resume]
    split
    · exact ((resume_agrees wake child kid cx).orderly.hand role).agrees
    · exact Orderly.silent.agrees
  | .repeater label child, .repeater status deferred kid, cx => by
    rw [resume]
    dsimp only
    repeat' split
    all_goals exact Orderly.silent.agrees
  | .loop label period child, .loop status timer kid, cx => by
    rw [resume]
    dsimp only
    repeat' split
    · exact (Orderly.running .silent).agrees
    all_goals exact Orderly.silent.agrees
  | .gate label bound mode period child, .gate status unit timer last kid, cx => by
    rw [resume]
    by_cases own : wake.node = label.id
    · rw [if_pos own]
      by_cases held : timer = some wake.task
      · rw [if_pos held]
        have polled := pollGate_agrees label mode period (evaluate child) (stop child) status unit
          last kid cx fun kid cx => (evaluate_agrees child kid cx).orderly
        simpa [Live.FaultsOnResume, Live.status, Tree.id, Tree.label, own, held] using polled
      · rw [if_neg held]
        exact Orderly.silent.agrees_of_sound fun fault => held fault.2.1
    · rw [if_neg own]
      -- the wake is not the gate's own, so its unit is not polled
      have sound : ¬ (wake.node = label.id ∧ timer = some wake.task ∧
          (H.poll unit cx.scene).answer = none) := fun fault => own fault.1
      split
      · have heard := (resume_agrees wake child kid cx).orderly
        rw [← heard.reported] at heard
        dsimp only
        split <;> exact heard.agrees_of_sound sound
      · exact Orderly.silent.agrees_of_sound sound
  | .ordered order label children, .ordered status kids, cx => by
    rw [resume]
    exact (resumeFrom_orderly wake order label children kids cx).agrees
  | .weighted label bounds children, .weighted status selected kids, cx => by
    rw [resume]
    dsimp only
    split
    · have heard := resumeRouted_orderly wake children kids cx
      rw [← heard.reported] at heard
      exact heard.agrees
    · exact Orderly.silent.agrees
  | .parallel label main background, .parallel status first second, cx => by
    rw [resume]
    dsimp only
    split
    · have heard := (resume_agrees wake main first cx).orderly
      simp only [Live.status, accompany_report, heard.reported]
      exact heard.agrees
    · split <;> exact Orderly.silent.agrees
  | .condition label bound, .condition status unit, cx => by
    exact Orderly.silent.agrees
  | .action label bound, .action status unit task, cx => by
    rw [resume]
    by_cases held : wake.node = label.id ∧ task = some wake.task
    · rw [if_pos held]
      simpa [Live.FaultsOnResume, Live.status, Tree.id, Tree.label, held] using
        stepAction_agrees label .update status unit task cx
    · rw [if_neg held]
      exact Orderly.silent.agrees_of_sound fun fault => held ⟨fault.1, fault.2.1⟩

theorem resumeFrom_orderly (wake : Wake) (order : Order) (label : Label) : (trees : Forest H) →
    (lives : LiveForest H trees) → (cx : Context H) →
    (resumeFrom wake order label trees lives cx).report.Orderly
  | .nil, .nil, _ => .silent
  | .cons tree trees, .cons head tail, cx => by
    rw [resumeFrom]
    split
    · have heard := react_orderly order label (stopAll trees)
        (resume_agrees wake tree head cx).orderly tail (resume wake tree head cx).cx
      dsimp only
      split
      · rename_i advances
        exact .append (heard.2 advances) (runFrom_orderly order label trees _ _)
      · exact heard.1
    · exact resumeFrom_orderly wake order label trees tail cx

theorem resumeRouted_orderly (wake : Wake) : (trees : Forest H) →
    (lives : LiveForest H trees) → (cx : Context H) →
    (resumeRouted wake trees lives cx).report.Orderly
  | .nil, .nil, _ => .silent
  | .cons tree trees, .cons head tail, cx => by
    rw [resumeRouted]
    split
    · exact (resume_agrees wake tree head cx).orderly
    · exact resumeRouted_orderly wake trees tail cx

end

theorem root_report {label : Label} {child : Tree H} (live : Live H (.relay .root label child))
    (cx : Context H) (report : Report)
    (call : report = (evaluate _ live cx).report ∨ ∃ wake, report = (resume wake _ live cx).report) :
    report = [] ∨ ∃ success, report = [Status.ofBool success] := by
  cases live with
  | relay status kid =>
    rcases call with rfl | ⟨wake, rfl⟩
    · rw [evaluate]
      split
      · exact .inl rfl
      · exact (evaluate_agrees child kid _).orderly.hand_root
    · rw [resume]
      split
      · exact (resume_agrees wake child kid cx).orderly.hand_root
      · exact .inl rfl

/-- Every call of a node makes an orderly report that its state agrees with, and a call of a built
tree answers at most one state, a verdict. -/
theorem report_grammar :
    (∀ (tree : Tree H) (live : Live H tree) (cx : Context H),
      Report.Agrees .running (live.FaultsOnEvaluate cx.scene)
        (evaluate tree live cx).report (evaluate tree live cx).live.status ∧
      ∀ wake, Report.Agrees live.status (live.FaultsOnResume wake cx.scene)
        (resume wake tree live cx).report (resume wake tree live cx).live.status) ∧
    ∀ (sources : Build.Sources H) (graph : Graph) (built : Built H),
      build sources graph = .ok built → ∀ (session : Session H built.tree) (report : Report),
        (report = session.evaluate.2 ∨ ∃ wake, report = (session.wake wake).2) →
        report = [] ∨ ∃ success, report = [Status.ofBool success] := by
  constructor
  · intro tree live cx
    exact ⟨evaluate_agrees tree live cx, fun wake => resume_agrees wake tree live cx⟩
  · intro sources graph built ok
    obtain ⟨root, tree, progress, _, _, rfl⟩ := build_eq_ok.mp ok
    intro session report call
    rcases call with rfl | ⟨wake, rfl⟩
    · exact root_report session.live session.cx _ (.inl rfl)
    · unfold Session.wake
      split
      · exact root_report session.live session.cx _ (.inr ⟨wake, rfl⟩)
      · exact .inl rfl

theorem restless_report : ∃ built, build rehearsed Rehearsal.restless = .ok built ∧
    let session := Session.start built.tree ⟨⟨[]⟩, built.blackboard⟩ (Sampler.ofSeed 0)
    session.evaluate.2 = [] ∨ ∃ success, session.evaluate.2 = [Status.ofBool success] := by
  obtain ⟨built, ok⟩ := restless_builds
  exact ⟨built, ok, report_grammar.2 rehearsed Rehearsal.restless built ok _ _ (.inl rfl)⟩

end ReactiveTree
