import Mathlib.Data.List.ReduceOption
import ReactiveTree.Proofs.Rhythm

/-!
The cadence of a loop. A cycle sets the timer for the next one, so while the loop is not stopped it
has one cycle in the first tick that brings the clock a period past the last cycle, and none in
between; a timer that is set in a tick does not fall due in it, however short the period. What the
child of the loop does makes no difference.
-/

namespace ReactiveTree

variable {H : Host} {label : Label} {period : Nat} {child : Tree H}

def Rhythm.ofLoop : Rhythm Nat where
  first now := now
  next now _ := now
  loud := true

/-- A loop rests, or had its last cycle at `last` and its timer is set for a period later. -/
inductive Paces (agenda : Agenda) : Live H (.loop label period child) → Option Nat → Prop
  | rests (kid : Live H child) : Paces agenda (.loop .waiting none kid) none
  | runs {timer last : Nat} (kid : Live H child) (given : timer < agenda.nextId)
      (set : ∀ task ∈ agenda.tasks, task.id = timer → task.trigger = .deadline (last + period)) :
      Paces agenda (.loop .running (some timer) kid) (some last)

/-- No task of the agenda has a number that it is still to give out. -/
structure Paced (loop : Live H (.loop label period child)) (cx : Context H) (last : Option Nat) :
    Prop where
  given : ∀ task ∈ cx.agenda.tasks, task.id < cx.agenda.nextId
  paces : Paces cx.agenda loop last

section Pacing

variable {agenda later : Agenda} {loop : Live H (.loop label period child)} {last : Option Nat}
  {status : Status} {timer : Option Nat} {kid kid' : Live H child} {cx cx' : Context H}

theorem Paces.grows (paces : Paces agenda loop last) (grows : agenda.Grows later) :
    Paces later loop last := by
  cases paces with
  | rests kid => exact .rests kid
  | runs kid given set =>
    refine .runs kid (Nat.lt_of_lt_of_le given grows.nextId) ?_
    rintro task member rfl
    rcases grows.tasks task member with there | ⟨recent, _⟩
    · exact set task there rfl
    · exact absurd given (Nat.not_lt.mpr recent)

theorem Paced.aside
    (paced : Paced (.loop status timer kid : Live H (.loop label period child)) cx last)
    (grows : cx.agenda.Grows cx'.agenda) :
    Paced (.loop status timer kid' : Live H (.loop label period child)) cx' last := by
  refine ⟨grows.given paced.given, ?_⟩
  cases paced.paces.grows grows with
  | rests => exact .rests kid'
  | runs _ given set => exact .runs kid' given set

theorem Paced.advance (paced : Paced loop cx last) (delta : Nat) :
    Paced loop { cx with agenda := (cx.agenda.advance delta).2 } last := by
  obtain ⟨known, paces⟩ := paced
  have fewer : (cx.agenda.advance delta).2.tasks ⊆ cx.agenda.tasks := List.filter_sublist.subset
  refine ⟨fun task member => known task (fewer member), ?_⟩
  cases paces with
  | rests kid => exact .rests kid
  | runs kid given set => exact .runs kid given fun task member => set task (fewer member)

end Pacing

section Cycles

variable (kid : Live H child) (cx : Context H)

theorem cycle_shown (apart : label.id ∉ child.labels.map Label.id) :
    (cycleChild label period (evaluate child) kid cx).cx.shown label.id =
      cx.shown label.id ++ [.running] :=
  (visit_shown kid _ .evaluate apart).trans (cx.shown_announce label .loop .running)

theorem cycle_recent : Recent cx.agenda.nextId
    (cycleChild label period (evaluate child) kid cx).deferred :=
  recent_some (visit_nextId kid (cx.announce label .loop .running) .evaluate)

theorem cycle_paced (given : ∀ task ∈ cx.agenda.tasks, task.id < cx.agenda.nextId) :
    let turn := cycleChild label period (evaluate child) kid cx
    Paced (.loop .running turn.deferred turn.kid : Live H (.loop label period child)) turn.cx
      (some cx.agenda.now) := by
  have grows := visit_grows kid (cx.announce label .loop .running) .evaluate
  have known := grows.given given
  have set := Agenda.Grows.after (evaluate child kid (cx.announce label .loop .running)).cx.agenda
    label.id period
  refine ⟨set.given known, .runs _ (Nat.lt_succ_self _) ?_⟩
  rintro task member own
  rcases List.mem_append.mp member with there | new
  · exact absurd own (Nat.ne_of_lt (known task there))
  · obtain rfl := List.mem_singleton.mp new
    exact congrArg (fun now => Trigger.deadline (now + period)) grows.now

end Cycles

section Calls

variable (apart : label.id ∉ child.labels.map Label.id) (status : Status) (timer : Option Nat)
  (kid : Live H child) (cx : Context H)

include apart

theorem loop_resumed (wake : Wake) :
    let turn := resume wake (.loop label period child) (.loop status timer kid) cx
    (wake.node = label.id ∧ timer = some wake.task) ∧
        (let cycled := cycleChild label period (evaluate child) kid cx
         turn = ⟨.loop .running cycled.deferred cycled.kid, cycled.cx, [.running]⟩) ∨
      ¬ (wake.node = label.id ∧ timer = some wake.task) ∧ ∃ kid' cx',
        turn = ⟨.loop status timer kid', cx', []⟩ ∧ cx'.shown label.id = cx.shown label.id ∧
          cx.agenda.Grows cx'.agenda := by
  intro turn
  have ran : turn = resume wake (.loop label period child) (.loop status timer kid) cx := rfl
  rw [resume] at ran
  split at ran
  · rename_i own
    split at ran
    · exact .inl ⟨⟨own, ‹_›⟩, ran⟩
    · rename_i other
      exact .inr ⟨fun both => other both.2, kid, cx, ran, rfl, .refl _⟩
  · rename_i other
    refine .inr ⟨fun both => other both.1, ?_⟩
    split at ran
    · exact ⟨_, _, ran, visit_shown kid cx (.resume wake) apart, visit_grows kid cx (.resume wake)⟩
    · exact ⟨kid, cx, ran, rfl, .refl _⟩

theorem loop_stopped :
    (stop (.loop label period child) (.loop status timer kid) cx).cx.shown label.id =
      cx.shown label.id ++ if status = .waiting then [] else [.waiting] := by
  have quiet := (visit_shown kid (cx.cancel timer) .stop apart).trans
    (cx.shown_cancel label.id timer)
  have settled := (stop child kid (cx.cancel timer)).cx.shown_settle label .loop status
  exact settled.trans (congrArg (· ++ _) quiet)

end Calls

theorem loop_rules (apart : label.id ∉ child.labels.map Label.id) :
    @Rhythm.Rules H Nat .ofLoop (.loop label period child) [label.id] Paced where
  quiet := by
    rintro (_ | _ | ⟨status, timer, kid⟩) cx cx' last paced _ grows
    exact paced.aside grows
  advance delta paced := paced.advance delta
  rests := by
    rintro loop cx ⟨_, paces⟩
    cases paces with | rests kid => exact ⟨rfl, nofun⟩
  runs := by
    rintro loop cx last ⟨_, paces⟩
    cases paces
    rfl
  begins := by
    rintro loop cx ⟨given, paces⟩
    cases paces with | rests kid => exact ⟨cycle_paced kid cx given, cycle_shown kid cx apart⟩
  beats := by
    rintro loop cx last task ⟨given, paces⟩ held
    cases paces with | @runs timer _ kid _ set =>
    intro turn
    rcases loop_resumed apart .running (some timer) kid cx ⟨label.id, task⟩ with
      ⟨_, ran⟩ | ⟨other, _⟩
    · rw [show turn = _ from ran]
      exact ⟨cycle_paced kid cx given, cycle_shown kid cx apart, cycle_recent kid cx⟩
    · exact absurd ⟨rfl, held⟩ other
  misses := by
    rintro (_ | _ | ⟨status, timer, kid⟩) cx last wake paced other turn
    rcases loop_resumed apart status timer kid cx wake with
      ⟨⟨own, held⟩, _⟩ | ⟨_, kid', cx', ran, shown, grows⟩
    · exact absurd held (other own)
    · rw [show turn = _ from ran]
      exact ⟨paced.aside grows, shown, rfl⟩
  stops := by
    rintro (_ | _ | ⟨status, timer, kid⟩) cx last ⟨given, paces⟩
    have grows := visit_grows (.loop status timer kid : Live H (.loop label period child)) cx .stop
    refine ⟨⟨grows.given given, .rests _⟩,
      (loop_stopped apart status timer kid cx).trans (congrArg (_ ++ ·) ?_)⟩
    cases paces <;> rfl

section Beats

def Live.inner : Live H (.loop label period child) → Live H child
  | .loop _ _ kid => kid

/-- The call activates the loop, or wakes it for the task that it holds. -/
def Visit.IsCycle (visit : Visit H (.loop label period child)) : Prop :=
  visit.Activates ∨ ∃ wake, visit.summons = .resume wake ∧ wake.node = label.id ∧
    visit.live.task? = some wake.task

def Visit.opened (visit : Visit H (.loop label period child)) : Context H :=
  match visit.summons with
  | .evaluate => (visit.cx.cancel visit.live.task?).announce label .loop .running
  | _ => visit.cx.announce label .loop .running

/-- A call of a loop is a cycle, which tells that the loop runs, activates the child once and sets
the timer; or nothing is told of it, unless it is stopped. -/
structure Visit.Beats (visit : Visit H (.loop label period child)) : Prop where
  cycle : visit.IsCycle → visit.told = [.running] ∧
    let active := evaluate child visit.live.inner visit.opened
    let set := active.cx.after label period
    visit.turn = ⟨.loop .running (some set.1) active.live, set.2, [.running]⟩
  silent : ¬ visit.IsCycle → visit.turn.report = [] ∧
    visit.told = if visit.summons = .stop ∧ visit.live.status ≠ .waiting then [.waiting] else []

theorem Visit.beats (apart : label.id ∉ child.labels.map Label.id)
    (visit : Visit H (.loop label period child)) : visit.Beats := by
  obtain ⟨summons, live, cx⟩ := visit
  cases live with | loop status timer kid
  let visit : Visit H (.loop label period child) := ⟨summons, .loop status timer kid, cx⟩
  -- a call that is no cycle leaves what was shown, but for a stop
  have unheard {live : Live H (.loop label period child)} {cx' : Context H}
      (goes : summons ≠ .stop) (idle : ¬ visit.IsCycle)
      (same : cx'.shown label.id = cx.shown label.id) (ran : visit.turn = ⟨live, cx', []⟩) :
      visit.Beats := by
    refine ⟨fun cycles => absurd cycles idle, fun _ => ⟨by rw [ran], ?_⟩⟩
    rw [if_neg fun stopped => goes stopped.1]
    apply Visit.told_eq
    rw [ran, List.append_nil]
    exact same
  have beats {cx' : Context H} (same : cx'.shown label.id = cx.shown label.id)
      (opens : visit.opened = cx'.announce label .loop .running) (cycles : visit.IsCycle)
      (ran : visit.turn =
        let turn := cycleChild label period (evaluate child) kid cx'
        ⟨.loop .running turn.deferred turn.kid, turn.cx, [.running]⟩) : visit.Beats := by
    refine ⟨fun _ => ⟨Visit.told_eq ?_, ?_⟩, fun idle => absurd cycles idle⟩
    · rw [ran]
      exact (cycle_shown kid cx' apart).trans (congrArg (· ++ [Status.running]) same)
    · rw [ran, opens]
      rfl
  cases summons with
  | evaluate =>
    have ran : visit.turn = evaluate (.loop label period child) (.loop status timer kid) cx := rfl
    rw [evaluate] at ran
    split at ran
    · rename_i runs
      refine unheard nofun ?_ rfl ran
      rintro (⟨_, idle⟩ | ⟨_, woken, _⟩)
      · exact idle runs
      · cases woken
    · rename_i idle
      exact beats (cx.shown_cancel label.id timer) rfl (.inl ⟨rfl, idle⟩) ran
  | resume wake =>
    rcases loop_resumed apart status timer kid cx wake with
      ⟨⟨own, held⟩, ran⟩ | ⟨other, _, _, ran, same, _⟩
    · exact beats rfl rfl (.inr ⟨wake, rfl, own, held⟩) ran
    · refine unheard nofun ?_ same ran
      rintro (⟨active, _⟩ | ⟨_, woken, own, held⟩)
      · cases active
      · cases woken
        exact other ⟨own, held⟩
  | stop =>
    refine ⟨?_, fun _ => ⟨rfl, Visit.told_eq ?_⟩⟩
    · rintro (⟨active, _⟩ | ⟨_, woken, _⟩)
      · cases active
      · cases woken
    · refine (loop_stopped apart status timer kid cx).trans (congrArg (_ ++ ·) ?_)
      by_cases waits : status = .waiting <;> simp [waits, Live.status]

end Beats

def Command.reaches (time now : Nat) : Command H → Bool
  | .tick delta => time ≤ now + delta
  | _ => false

/-- When a loop that had its last cycle at `last` has one in each of the commands. -/
def cadence (period : Nat) : Nat → Nat → List (Command H) → List (Option Nat)
  | _, _, [] => []
  | last, now, command :: rest =>
    let later := now + command.lapse
    if command.reaches (last + period) now then some later :: cadence period later later rest
    else none :: cadence period last later rest

namespace Session

variable {tree : Tree H} {session : Session H tree} {held : Option Nat}

section Timers

variable (distinct : (tree.labels.map Label.id).Nodup) (reckoned : session.Reckoned)

include distinct reckoned

theorem timer_pending {last : Nat}
    (placed : session.Placed (@Paced H label period child) held (some last)) :
    ∃ timer, ∃ kid : Live H child, held = some timer ∧
      ⟨.loop label period child, .loop .running (some timer) kid⟩ ∈ session.live.parts ∧
        session.cx.agenda.tasksFor label.id = [⟨timer, label.id, .deadline (last + period)⟩] := by
  obtain ⟨loop, member, rfl, _, paces⟩ := placed.part
  cases paces with | @runs timer _ kid given set =>
  have node := List.mem_map_of_mem (f := Part.tree) member
  rw [parts_trees] at node
  obtain ⟨⟨id, owner, trigger⟩, only, own, rfl, _⟩ := reckoned.task_pending distinct member
    (fun _ forgotten => forgotten_apart distinct node forgotten rfl) (Option.some_ne_none _)
  obtain rfl : timer = id := Option.some.inj own
  have there : ⟨timer, label.id, trigger⟩ ∈ session.cx.agenda.tasksFor label.id :=
    only ▸ List.mem_singleton_self _
  obtain rfl : trigger = .deadline (last + period) := set _ (List.mem_filter.mp there).1 rfl
  exact ⟨timer, kid, rfl, member, only⟩

theorem falls_timer {before : Option Nat}
    (placed : session.Placed (@Paced H label period child) held before) (command : Command H) :
    session.Falls label.id held command
      (before.any fun last => command.reaches (last + period) session.cx.agenda.now) := by
  cases before with
  | none =>
    obtain ⟨loop, _, rfl, _, paces⟩ := placed.part
    cases paces with | rests kid => cases command <;> first | rfl | nofun
  | some last =>
    rw [Option.any_some]
    cases command with
    | tick delta =>
      by_cases reached : last + period ≤ session.cx.agenda.now + delta
      · have falls : (Command.tick delta : Command H).reaches (last + period)
            session.cx.agenda.now = true := decide_eq_true reached
        obtain ⟨timer, kid, rfl, _, only⟩ := timer_pending distinct reckoned placed
        have there : ⟨timer, label.id, .deadline (last + period)⟩ ∈
            session.cx.agenda.tasksFor label.id := only ▸ List.mem_singleton_self _
        rw [falls]
        obtain ⟨there, _⟩ := List.mem_filter.mp there
        exact ⟨timer, rfl, List.mem_map.mpr
          ⟨_, List.mem_filter.mpr ⟨there, decide_eq_true reached⟩, rfl⟩⟩
      · have early : (Command.tick delta : Command H).reaches (last + period)
            session.cx.agenda.now = false := decide_eq_false reached
        obtain ⟨loop, _, rfl, _, paces⟩ := placed.part
        cases paces with | runs kid given set =>
        rw [early]
        intro wake member same
        obtain ⟨task, due, rfl⟩ := List.mem_map.mp member
        obtain ⟨there, due⟩ := List.mem_filter.mp due
        rw [set task there (Option.some.inj same).symm] at due
        exact reached (of_decide_eq_true due)
    | _ => rfl

end Timers

section Running

variable (numbered : tree.Numbered) (reckoned : session.Reckoned)

include numbered reckoned

theorem perform_paced (apart : label.id ∉ child.labels.map Label.id) {before : Option Nat}
    (placed : session.Placed (@Paced H label period child) held before) (command : Command H) :
    let performed := session.perform command
    performed.cx.agenda.now = session.cx.agenda.now + command.lapse ∧
      ∃ timer after, performed.Placed (@Paced H label period child) timer after ∧
        Rhythm.ofLoop.Turns performed.cx.agenda.now before
          (before.any fun last => command.reaches (last + period) session.cx.agenda.now)
          (session.tells label.id command) after :=
  perform_placed (loop_rules apart) (List.mem_singleton_self _) numbered
    (clears_singleton label.id tree) reckoned placed
    (falls_timer numbered.distinct reckoned placed command)

theorem run_paced (apart : label.id ∉ child.labels.map Label.id) {last : Nat}
    (placed : session.Placed (@Paced H label period child) held (some last))
    (commands : List (Command H))
    (goes : ∀ told ∈ session.tellings label.id commands, .waiting ∉ told) :
    let cycles := cadence period last session.cx.agenda.now commands
    session.tellings label.id commands =
        cycles.map (fun cycle => if cycle.isSome then [.running] else []) ∧
      ∃ timer, (session.run commands).Placed (@Paced H label period child) timer
        (some (cycles.reduceOption.getLastD last)) := by
  induction commands generalizing session last held with
  | nil => exact ⟨rfl, held, placed⟩
  | cons command rest ih =>
    obtain ⟨lapse, timer, after, kept, turns⟩ :=
      perform_paced numbered reckoned apart placed command
    obtain ⟨quiet, goes⟩ := List.forall_mem_cons.mp goes
    obtain ⟨told, rfl⟩ := turns.of_undisturbed quiet
    have reckoned : (session.perform command).Reckoned :=
      run_reckoned numbered [command] reckoned
    rw [Option.any_some] at told kept
    rw [tellings, told, cadence]
    cases due : command.reaches (last + period) session.cx.agenda.now with
    | false =>
      rw [due] at kept
      obtain ⟨later, ends⟩ := ih reckoned kept goes
      rw [lapse] at later ends
      exact ⟨congrArg (List.cons []) later, ends⟩
    | true =>
      rw [due, if_pos rfl, lapse] at kept
      obtain ⟨later, ends⟩ := ih reckoned kept goes
      rw [lapse] at later ends
      refine ⟨congrArg (List.cons [Status.running]) later, ?_⟩
      rw [if_pos rfl, List.reduceOption_cons_of_some, List.getLastD_cons]
      exact ends

end Running

end Session

/-- From a cycle on, such as the activation of the loop, a loop that is not stopped runs, has just
the timer for the next cycle in the agenda between two calls, and cycles in the first tick that
comes a period after its last cycle. The next call may stop it, before or after the cycle that is
due. Each of its calls is one cycle with one activation of the child, or reports nothing. -/
theorem loop_keeps_cadence {sources : Build.Sources H} {graph : Graph} {built : Built H}
    (ok : build sources graph = .ok built) (scene : Scene H.Target) (sampler : H.Sampler)
    {label : Label} {period : Nat} {child : Tree H}
    (node : Tree.loop label period child ∈ built.tree.nodes) (before : List (Command H))
    (opening : Command H) (after : List (Command H)) :
    let found := (Session.start built.tree scene sampler).run before
    let opened := found.perform opening
    let session := opened.run after
    ∀ early, found.tells label.id opening = early ++ [.running] →
      (∀ told ∈ opened.tellings label.id after, .waiting ∉ told) →
      let begun := opened.cx.agenda.now
      let cycles := cadence period begun begun after
      let last := cycles.reduceOption.getLastD begun
      early.getLast? ≠ some .running ∧
      opened.tellings label.id after =
        cycles.map (fun cycle => if cycle.isSome then [.running] else []) ∧
      (∃ timer, ∃ kid : Live H child, ∃ visits : List (Visit H (.loop label period child)),
        ⟨.loop label period child, .loop .running (some timer) kid⟩ ∈ session.live.parts ∧
        session.cx.agenda.tasksFor label.id = [⟨timer, label.id, .deadline (last + period)⟩] ∧
        Life visits (.loop .running (some timer) kid) session.cx ∧
        session.cx.shown label.id = visits.flatMap Visit.told ∧ ∀ visit ∈ visits, visit.Beats) ∧
      ∀ command, ∃ later, Rhythm.ofLoop.Turns (session.perform command).cx.agenda.now (some last)
        (command.reaches (last + period) session.cx.agenda.now)
        (session.tells label.id command) later := by
  intro found opened session early opens goes begun cycles last
  have numbered := (build_consecutive ok).1.numbered
  have distinct := numbered.distinct
  have below := numbered_of_mem numbered node
  have outside : label.id ∉ child.labels.map Label.id :=
    fun member => Nat.lt_irrefl _ (below.1 _ member)
  obtain ⟨apart, reckoned, timer, _, running, stands⟩ := Session.run_opens (loop_rules outside)
    (List.mem_singleton_self _) numbered (clears_singleton label.id built.tree)
    (fun reckoned placed command => ⟨_, Session.falls_timer distinct reckoned placed command⟩) node
    ⟨nofun, .rests _⟩ before opening opens
  -- a loop that told last that it runs had its cycle in this call
  obtain rfl : _ = begun := stands.elim id fun ⟨_, _, same⟩ => same
  obtain ⟨told, timer, kept⟩ := Session.run_paced numbered reckoned outside running after goes
  have settled : session.Reckoned := Session.run_reckoned numbered after reckoned
  refine ⟨apart, told, ?_, ?_⟩
  · obtain ⟨timer, kid, _, member, only⟩ := Session.timer_pending distinct settled kept
    have whole : session = (Session.start built.tree scene sampler).run
        (before ++ opening :: after) := by
      simp only [session, opened, found, Session.run, List.foldl_append, List.foldl_cons]
    obtain ⟨visits, life⟩ := Session.run_lives numbered scene sampler (before ++ opening :: after)
      _ (whole ▸ member)
    rw [← whole] at life
    exact ⟨timer, kid, visits, member, only, life, life.heard Event.status?,
      fun visit _ => visit.beats outside⟩
  · intro command
    obtain ⟨_, _, later, _, turns⟩ := Session.perform_paced numbered settled outside kept command
    exact ⟨later, turns⟩

def Rehearsal.beacon : Graph where
  nodes := [
    { kind := "Root", id := "root", children := ["order"], params := {} },
    { kind := "Sequencer", id := "order", children := ["light", "flashes"], params := {} },
    { kind := "ActionNode", id := "light", params := {
        unit := some "Act", inputs := [.literal "light", .literal "", .literal "-s", .literal ""] } },
    { kind := "Loop", id := "flashes", children := ["flash"], params := { periodMs := some 2 } },
    { kind := "ConditionNode", id := "flash", params := {
        unit := some "Script", inputs := [.literal "flash", .literal "t"] } }]

def Rehearsal.watch : List (Command Rehearsal) :=
  [.tick 1000000, .tick 7000000, .tick 0, .tick 2000000]

/-- The late tick brings one flash, and the next one is due two milliseconds after it. -/
theorem beacon_flashes : ∃ built, build rehearsed Rehearsal.beacon = .ok built ∧
    let found := built.fresh.run [.evaluate]
    let opened := found.perform (.tick 7)
    found.tells 3 (.tick 7) = [.running] ∧
      opened.tellings 3 Rehearsal.watch = [[], [.running], [], [.running]] ∧
      ∃ timer, (opened.run Rehearsal.watch).cx.agenda.tasksFor 3 =
        [⟨timer, 3, .deadline (10000007 + 2000000)⟩] := by
  have flashes : ((build rehearsed Rehearsal.beacon).toOption.map fun built =>
      built.tree.nodes.any fun node => match node with
        | .loop label period _ => label.id = 3 ∧ period = 2000000
        | _ => false) = some true := by decide +kernel
  have course : ((build rehearsed Rehearsal.beacon).toOption.map fun built =>
      let found := built.fresh.run [.evaluate]
      let opened := found.perform (.tick 7)
      decide (found.tells 3 (.tick 7) = [.running] ∧
        (∀ told ∈ opened.tellings 3 Rehearsal.watch, .waiting ∉ told) ∧
        opened.cx.agenda.now = 7)) = some true := by decide +kernel
  cases ok : build rehearsed Rehearsal.beacon with
  | error _ => rw [ok] at flashes; cases flashes
  | ok built =>
    rw [ok] at flashes course
    obtain ⟨node, member, facts⟩ := List.any_eq_true.mp (Option.some.inj flashes)
    obtain ⟨lit, goes, clock⟩ := of_decide_eq_true (Option.some.inj course)
    refine ⟨built, rfl, lit, ?_⟩
    split at facts
    · rename_i label period child
      obtain ⟨own, rfl⟩ := of_decide_eq_true facts
      rw [← own] at lit goes ⊢
      unfold Built.fresh at lit goes clock ⊢
      have kept := loop_keeps_cadence ok ⟨⟨[]⟩, built.blackboard⟩ (Sampler.ofSeed 0) member
        [.evaluate] (.tick 7) Rehearsal.watch [] lit goes
      have cycles : cadence 2000000 7 7 Rehearsal.watch =
          [none, some 8000007, none, some 10000007] := by decide +kernel
      have last : [none, some 8000007, none, some 10000007].reduceOption.getLastD 7 = 10000007 :=
        rfl
      dsimp only at kept
      rw [clock, cycles, last] at kept
      obtain ⟨_, told, ⟨timer, _, _, _, pending, _⟩, _⟩ := kept
      exact ⟨told, timer, pending⟩
    · cases facts

end ReactiveTree
