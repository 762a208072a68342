import ReactiveTree.Agent
import ReactiveTree.Proofs.Construction

/-!
The outcome of an agent over a whole run. A frame joins the reports of all wakes that fall due in
it, so one report may hold several terminal states. The agent looks at the last of them, and an agent
whose first verdict is taken back within the same frame keeps the later one.
-/

namespace ReactiveTree

namespace Report

def firstTerminal? (report : Report) : Option Status :=
  report.find? Status.isTerminal

theorem isSome_terminal? (report : Report) :
    report.terminal?.isSome = report.firstTerminal?.isSome := by
  rw [Bool.eq_iff_iff, terminal?, firstTerminal?, List.find?_isSome, List.find?_isSome]
  simp only [List.mem_reverse]

theorem firstTerminal?_flatten (reports : List Report) :
    firstTerminal? reports.flatten = reports.findSome? firstTerminal? :=
  List.find?_flatten

theorem findSome?_terminal?_iff (reports : List Report) :
    reports.findSome? terminal? = reports.findSome? firstTerminal? ↔
      ∀ report, reports.find? (·.firstTerminal?.isSome) = some report →
        report.terminal? = report.firstTerminal? := by
  induction reports with
  | nil => simp
  | cons report rest ih =>
    have both := isSome_terminal? report
    cases first : report.firstTerminal? with
    | none =>
      rw [first, Option.isSome_none, Option.isSome_eq_false_iff, Option.isNone_iff_eq_none] at both
      simpa [List.findSome?_cons, List.find?_cons, both, first] using ih
    | some opening =>
      rw [first, Option.isSome_some] at both
      obtain ⟨closing, last⟩ := Option.isSome_iff_exists.mp both
      simp [last, first]

end Report

/-- What a host does with an agent. A write stands for what it does to the variables. -/
inductive AgentCommand where
  | start
  | frame (delta : Nat)
  | write (edit : Blackboard → Blackboard)
  | shutdown

namespace Agent

variable {units : Pawn.Units} {tree : Tree units.host}

def answer (agent : Agent tree) : AgentCommand → Agent tree × Report
  | .start => agent.start
  | .frame delta => agent.frame delta
  | .write edit =>
    ({ agent with session := agent.session.withBlackboard (edit agent.session.blackboard) }, [])
  | .shutdown => (agent.shutdown, [])

def run : List AgentCommand → Agent tree → Agent tree × List Report
  | [], agent => (agent, [])
  | command :: rest, agent =>
    let answered := agent.answer command
    let later := run rest answered.1
    (later.1, answered.2 :: later.2)

theorem answer_outcome (agent : Agent tree) (command : AgentCommand) :
    (agent.answer command).1.outcome = agent.outcome.or (agent.answer command).2.terminal? := by
  cases command with
  | start | frame => rfl
  | write | shutdown => exact (Option.or_none).symm

theorem run_outcome (commands : List AgentCommand) (agent : Agent tree) :
    (run commands agent).1.outcome =
      agent.outcome.or ((run commands agent).2.findSome? Report.terminal?) := by
  induction commands generalizing agent with
  | nil => exact (Option.or_none).symm
  | cons command rest ih =>
    rw [run, ih, answer_outcome, Option.or_assoc, List.findSome?_cons]
    cases (agent.answer command).2.terminal? <;> rfl

end Agent

/-- After any run the outcome is the last terminal state of the first report that has one. It is the
first terminal state of the run exactly if that report ends as it began, and it stays. -/
theorem outcome_from_first_verdict {units : Pawn.Units} (tree : Tree units.host) (pawn : Pawn)
    (blackboard : Blackboard) (sampler : units.Sampler) (commands : List AgentCommand) :
    let ran := (Agent.new tree pawn blackboard sampler).run commands
    ran.1.outcome = ran.2.findSome? Report.terminal? ∧
    (ran.1.outcome = Report.firstTerminal? ran.2.flatten ↔
      ∀ report, ran.2.find? (·.firstTerminal?.isSome) = some report →
        report.terminal? = report.firstTerminal?) ∧
    ∀ outcome, ran.1.outcome = some outcome →
      ∀ later, (ran.1.run later).1.outcome = some outcome := by
  intro ran
  have recorded : ran.1.outcome = ran.2.findSome? Report.terminal? :=
    Agent.run_outcome commands (Agent.new tree pawn blackboard sampler)
  refine ⟨recorded, ?_, ?_⟩
  · rw [recorded, Report.firstTerminal?_flatten]
    exact Report.findSome?_terminal?_iff ran.2
  · intro outcome known later
    rw [Agent.run_outcome, known, Option.some_or]

section Doorway

/-- A gate that polls every tenth of a second whether the door is open, over a wait of one frame. -/
def Pawn.doorway : Graph where
  declarations := [{ name := "open", kind := some .bool, value := some "true" }]
  nodes := [
    { kind := "Root", id := "root", children := ["gate"], params := {} },
    { kind := "LoopConditionNode", id := "gate", children := ["wait"], params := {
        unit := some "IsTrue", mode := some "Both", periodMs := some 100
        inputs := [.ref "open"] } },
    { kind := "ActionNode", id := "wait", params := { unit := some "WaitOneFrame" } }]

def piloted : Build.Sources Pawn.host := { registry := Pawn.registry }

def Built.scout (built : Built Pawn.host) : Agent built.tree :=
  .new built.tree (Pawn.seeded "scout" 3) built.blackboard (Sampler.ofSeed 0)

def Pawn.shutting : List AgentCommand :=
  [.start, .write fun board => board.put "open" ⟨.bool, false⟩, .frame (milliseconds 100)]

theorem doorway_builds : ∃ built, build piloted Pawn.doorway = .ok built :=
  exists_built (by decide +kernel)

theorem doorway_outcome : ∃ built, build piloted Pawn.doorway = .ok built ∧
    let ran := built.scout.run Pawn.shutting
    ran.1.outcome = ran.2.findSome? Report.terminal? ∧
    ∀ later, (ran.1.run later).1.outcome = some .failure := by
  obtain ⟨built, ok⟩ := doorway_builds
  have failed : ((build piloted Pawn.doorway).toOption.map fun built =>
      (built.scout.run Pawn.shutting).1.outcome) = some (some .failure) := by decide +kernel
  rw [ok] at failed
  have failed := Option.some.inj failed
  obtain ⟨recorded, _, stays⟩ := outcome_from_first_verdict built.tree (Pawn.seeded "scout" 3)
    built.blackboard (Sampler.ofSeed 0) Pawn.shutting
  exact ⟨built, ok, recorded, stays .failure failed⟩

/-- The wait succeeds and the gate fails within one frame, and the outcome is the failure. -/
theorem doorway_outcome_not_first :
    (build piloted Pawn.doorway).toOption.map (fun built =>
      let ran := built.scout.run Pawn.shutting
      (ran.1.outcome, Report.firstTerminal? ran.2.flatten)) =
      some (some .failure, some .success) := by
  decide +kernel

end Doorway

end ReactiveTree
