import ReactiveTree.Proofs.Gatekeeping
import ReactiveTree.Proofs.Protocol
import ReactiveTree.Proofs.Tracking

/-!
Wakes that come too late. A wake finds its node only while the node still holds the task that fell
due, and whatever a node registers while a batch of wakes is handed out is newer than all of the
batch. So a node that gave up a task in a batch, and be it that it was stopped and started anew at
once, never holds it again, and the wake for it does nothing.
-/

namespace ReactiveTree

variable {H : Host}

/-- No node that the wake is addressed to holds its task. -/
def Live.Misses {tree : Tree H} (live : Live H tree) (wake : Wake) : Prop :=
  ∀ part ∈ live.parts, part.tree.id = wake.node → part.live.task? ≠ some wake.task

section Holders

theorem stale_holds_iff {wake : Wake} {part : Part H} : wake.Stale part.holds ↔
    (part.tree.id = wake.node → part.live.task? ≠ some wake.task) := by
  constructor
  · intro stale own held
    exact stale_holds stale ⟨own.symm, held⟩
  · intro apart handle member
    unfold Part.holds at member
    cases held : part.live.task? with
    | none => rw [held] at member; cases member
    | some task =>
      rw [held] at member
      obtain rfl := List.mem_singleton.mp member
      rintro ⟨own, rfl⟩
      exact apart own held

theorem stale_iff {wake : Wake} {tree : Tree H} (live : Live H tree) :
    wake.Stale live.handles ↔ live.Misses wake := by
  simp only [handles_eq, Wake.Stale, List.forall_mem_flatMap, Live.Misses, ← stale_holds_iff]

end Holders

/-- An observer was told that a node waits again: it was stopped. -/
def Event.isRest : Event → Bool
  | .changed change => change.status = .waiting
  | .called _ _ => false

def Context.rests (cx : Context H) (id : Nat) : Nat :=
  (cx.about id).countP Event.isRest

/-- Nothing, or what was registered since the numbers of tasks stood at the floor. -/
def Recent (floor : Nat) (task? : Option Nat) : Prop :=
  ∀ task, task? = some task → floor ≤ task

section Renewal

variable {id floor : Nat} {label : Label} {child : Tree H} {cx : Context H}

theorem recent_none {task? : Option Nat} (none : task? = none) : Recent floor task? := by
  subst none
  nofun

theorem recent_some {task : Nat} (recent : floor ≤ task) : Recent floor (some task) := by
  rintro _ ⟨⟩
  exact recent

theorem rests_record {event : Event} (active : event.isRest = false) :
    (cx.record event).rests id = cx.rests id := by
  unfold Context.rests Context.about
  rw [Context.events_record, List.filter_append, List.countP_append]
  by_cases own : event.node = id <;> simp [own, active]

theorem rests_announceAll (kind : NodeKind) {report : Report}
    (reported : ∀ status ∈ report, status ≠ .waiting) :
    (cx.announceAll label kind report).rests id = cx.rests id := by
  induction report generalizing cx with
  | nil => rfl
  | cons status report ih =>
    obtain ⟨first, rest⟩ := List.forall_mem_cons.mp reported
    exact (ih rest).trans (rests_record (decide_eq_false first))

theorem visit_rests {tree : Tree H} (live : Live H tree) (cx : Context H) (summons : Summons)
    (outside : id ∉ tree.labels.map Label.id) : (live.visit cx summons).cx.rests id = cx.rests id :=
  congrArg (List.countP Event.isRest) (visit_about live cx summons outside)

theorem rearm_recent (mode : PollMode) (period : Nat) (halts : Bool)
    (grows : floor ≤ cx.agenda.nextId) : Recent floor (rearm label mode period halts cx).1 := by
  unfold rearm
  split
  · exact recent_none rfl
  · exact recent_some grows

theorem pollGate_recent (mode : PollMode) (period : Nat) (status : Status) (unit : H.Condition)
    (last : Status) (kid : Live H child) (grows : floor ≤ cx.agenda.nextId) :
    Recent floor
      (pollGate label mode period (evaluate child) (stop child) status unit last kid cx).timer := by
  have active (cx : Context H) (grows : floor ≤ cx.agenda.nextId) :=
    Nat.le_trans grows (visit_nextId kid cx .evaluate)
  have halted (cx : Context H) (grows : floor ≤ cx.agenda.nextId) :=
    Nat.le_trans grows (visit_nextId kid cx .stop)
  match answer : (cx.poll label unit).answer with
  | none =>
    rw [pollGate_faulted answer]
    exact recent_none rfl
  | some true =>
    by_cases succeeded : last = .success
    · rw [pollGate_content answer succeeded]
      exact rearm_recent mode period _ grows
    · rw [pollGate_opens answer succeeded]
      apply rearm_recent mode period
      rw [Context.announceAll_agenda]
      exact active _ grows
  | some false =>
    by_cases failed : last = .failure
    · rw [pollGate_closed answer failed]
      exact rearm_recent mode period _ grows
    · rw [pollGate_closes answer failed]
      exact rearm_recent mode period _ (halted _ grows)

theorem repeatChild_recent (deferred : Option Nat) (kid : Live H child) :
    let turn := repeatChild label (evaluate child) deferred kid cx
    Recent cx.agenda.nextId turn.deferred ∨
      turn.deferred = deferred ∧ turn.cx = (evaluate child kid cx).cx := by
  unfold repeatChild
  dsimp only
  split
  · exact .inl (recent_some (visit_nextId kid cx .evaluate))
  · exact .inr ⟨rfl, rfl⟩

theorem stepAction_goes_on (label : Label) (phase : Phase) (status : Status) (unit : H.Action)
    (task : Option Nat) (cx : Context H) :
    let ran := stepAction label phase status unit task cx
    ran.task = none ∨ ran.task = task ∧ ran.cx = (cx.act label phase unit).cx := by
  unfold stepAction
  dsimp only
  split
  · exact .inr ⟨rfl, rfl⟩
  · exact .inl rfl
  · exact .inl rfl

theorem startAction_recent (label : Label) (unit : H.Action) (task : Option Nat)
    (cx : Context H) : Recent cx.agenda.nextId (startAction label unit task cx).task := by
  have idle (phase : Phase) (unit : H.Action) (cx : Context H) :
      (stepAction label phase .running unit none cx).task = none := by
    rcases stepAction_goes_on label phase .running unit none cx with ended | ⟨same, _⟩
    · exact ended
    · exact same
  unfold startAction
  dsimp only
  split
  · split
    · apply recent_some
      refine Nat.le_of_eq (Eq.symm ?_)
      exact stepAction_nextId.trans (stepAction_nextId.trans (nextId_cancel cx task))
    · exact recent_none (idle _ _ _)
  · exact recent_none (idle _ _ _)

theorem evaluate_recent {tree : Tree H} (live : Live H tree) (cx : Context H)
    (idle : ¬ live.isRunning) :
    Recent cx.agenda.nextId (evaluate tree live cx).live.task? := by
  cases live with
  | relay | ordered | weighted | parallel | condition =>
    exact recent_none (task?_eq_none rfl _)
  | @repeater label child status deferred kid =>
    have given : ((cx.cancel deferred).announce label .repeater .running).agenda.nextId =
        cx.agenda.nextId := nextId_cancel cx deferred
    rw [evaluate, if_neg (show ¬ status.isRunning from idle), ← given]
    rcases repeatChild_recent none kid with recent | ⟨ended, _⟩
    · exact recent
    · exact recent_none ended
  | @loop label period child status timer kid =>
    have given : ((cx.cancel timer).announce label .loop .running).agenda.nextId =
        cx.agenda.nextId := nextId_cancel cx timer
    rw [evaluate, if_neg (show ¬ status.isRunning from idle), ← given]
    exact recent_some (visit_nextId kid _ .evaluate)
  | @gate label bound mode period child status unit timer last kid =>
    have given : ((cx.cancel timer).announce label .loopConditionNode .running).agenda.nextId =
        cx.agenda.nextId := nextId_cancel cx timer
    rw [evaluate, if_neg (show ¬ status.isRunning from idle)]
    exact pollGate_recent mode period .running unit .running kid (Nat.le_of_eq given.symm)
  | @action label bound status unit task =>
    rw [evaluate, if_neg (show ¬ status.isRunning from idle)]
    exact startAction_recent label unit task cx

theorem stop_task {tree : Tree H} (live : Live H tree) (cx : Context H) :
    (stop tree live cx).live.task? = none := by
  cases live <;> rw [stop] <;> rfl

theorem resume_renews (wake : Wake) {tree : Tree H} (live : Live H tree) (cx : Context H)
    (apart : tree.id ∉ tree.labels.tail.map Label.id) :
    let turn := resume wake tree live cx
    Recent cx.agenda.nextId turn.live.task? ∨
      turn.live.task? = live.task? ∧ turn.cx.rests tree.id = cx.rests tree.id := by
  cases live with
  | relay | ordered | weighted | parallel | condition =>
    exact .inl (recent_none (task?_eq_none rfl _))
  | @repeater label child status deferred kid =>
    have below : (resume wake child kid cx).cx.rests label.id = cx.rests label.id :=
      visit_rests kid cx (.resume wake) apart
    rw [resume]
    split
    · split
      · rcases repeatChild_recent none kid with recent | ⟨ended, _⟩
        · left
          rwa [nextId_cancel] at recent
        · exact .inl (recent_none ended)
      · exact .inr ⟨rfl, rfl⟩
    · split
      · dsimp only
        split
        · rcases repeatChild_recent deferred (resume wake child kid cx).live with
            recent | ⟨kept, ran⟩
          · left
            intro task taken
            exact Nat.le_trans (visit_nextId kid cx (.resume wake)) (recent task taken)
          · have again := visit_rests (resume wake child kid cx).live (resume wake child kid cx).cx
              .evaluate apart
            exact .inr ⟨kept, (congrArg (Context.rests · label.id) ran).trans (again.trans below)⟩
        · exact .inr ⟨rfl, below⟩
      · exact .inr ⟨rfl, rfl⟩
  | @loop label period child status timer kid =>
    rw [resume]
    split
    · split
      · exact .inl (recent_some (visit_nextId kid (cx.announce label .loop .running) .evaluate))
      · exact .inr ⟨rfl, rfl⟩
    · split
      · exact .inr ⟨rfl, visit_rests kid cx (.resume wake) apart⟩
      · exact .inr ⟨rfl, rfl⟩
  | @gate label bound mode period child status unit timer last kid =>
    rw [resume]
    split
    · split
      · exact .inl (pollGate_recent mode period status unit last kid (Nat.le_refl _))
      · exact .inr ⟨rfl, rfl⟩
    · split
      · dsimp only
        split
        · exact .inl (recent_none rfl)
        · refine .inr ⟨rfl, (rests_announceAll .loopConditionNode ?_).trans
            (visit_rests kid cx (.resume wake) apart)⟩
          -- a gate repeats what its child reaches, and no child reports that it waits
          rintro _ heard rfl
          exact absurd (List.mem_filter.mp heard).2 (by decide)
      · exact .inr ⟨rfl, rfl⟩
  | @action label bound status unit task =>
    rw [resume]
    split
    · rcases stepAction_goes_on label .update status unit task cx with ended | ⟨kept, ran⟩
      · exact .inl (recent_none ended)
      · exact .inr ⟨kept, (congrArg (Context.rests · label.id) ran).trans (rests_record rfl)⟩
    · exact .inr ⟨rfl, rfl⟩

/-- After a call of its own a node holds nothing, or a task registered in the call, or what it held
before and was not stopped. -/
theorem visit_renews {tree : Tree H} (live : Live H tree) (cx : Context H) (summons : Summons)
    (apart : tree.id ∉ tree.labels.tail.map Label.id) :
    let turn := live.visit cx summons
    Recent cx.agenda.nextId turn.live.task? ∨
      turn.live.task? = live.task? ∧ turn.cx.rests tree.id = cx.rests tree.id := by
  cases summons with
  | evaluate =>
    by_cases runs : live.isRunning
    · rw [Live.visit, evaluate_of_running live cx runs]
      exact .inr ⟨rfl, rfl⟩
    · exact .inl (evaluate_recent live cx runs)
  | resume wake => exact resume_renews wake live cx apart
  | stop => exact .inl (recent_none (stop_task live cx))

end Renewal

section Waiting

theorem Report.Agrees.waits {prior after : Status} {faulted : Prop} {report : Report}
    (agrees : report.Agrees prior faulted after) (waits : after = .waiting) : prior = .waiting := by
  by_cases fault : faulted
  · exact absurd ((agrees.warns fault).2.symm.trans waits) nofun
  · have last := (agrees.follows fault).symm.trans waits
    rw [← agrees.orderly.reported, List.getLastD_eq_getLast?] at last
    cases said : (report.filter Status.isReported).getLast? with
    | none => rwa [said] at last
    | some status =>
      obtain rfl : status = .waiting := by rwa [said] at last
      exact absurd (List.mem_filter.mp (List.mem_of_getLast? said)).2 (by decide)

theorem Live.Reachable.unheld {tree : Tree H} {live : Live H tree} (reached : live.Reachable)
    (waits : live.status = .waiting) : live.handles = [] := by
  induction reached with
  | fresh => exact initial_handles tree
  | activated cx _ _ => exact absurd ((evaluate_agrees tree _ cx).waits waits) nofun
  | @woken live wake cx _ ih =>
    have unheld := ih ((resume_agrees wake tree live cx).waits waits)
    rwa [resume_unheld wake tree live cx unheld]
  | stopped cx _ _ => exact stop_handles tree _ cx

end Waiting

/-- The node does not hold the old task if it had given it up before, or if it was stopped since it
had been stopped so often. -/
structure Sheds (id floor old rests : Nat) (gone : Prop) (part : Part H) (cx : Context H) :
    Prop where
  recent : floor ≤ cx.agenda.nextId
  apart : gone ∨ cx.rests id ≠ rests → part.live.task? ≠ some old

section Shedding

variable {id floor old rests : Nat} {gone : Prop} (past : old < floor)

include past

theorem Sheds.visit {tree : Tree H} {live : Live H tree} {cx : Context H} (own : tree.id = id)
    (outside : id ∉ tree.labels.tail.map Label.id)
    (sheds : Sheds id floor old rests gone ⟨tree, live⟩ cx) (summons : Summons) :
    Sheds id floor old rests gone ⟨tree, (live.visit cx summons).live⟩
      (live.visit cx summons).cx := by
  subst own
  obtain ⟨recent, apart⟩ := sheds
  refine ⟨Nat.le_trans recent (visit_nextId live cx summons), ?_⟩
  rcases visit_renews live cx summons outside with renewed | ⟨kept, still⟩
  · rintro _ taken
    exact Nat.not_le.mpr past (Nat.le_trans recent (renewed old taken))
  · rwa [kept, still]

/-- A task that was given up is never taken again. -/
theorem sheds_follows : @Follows H id [id] (Sheds id floor old rests gone) where
  quiet := by
    rintro part cx cx' ⟨recent, apart⟩ same grows
    refine ⟨Nat.le_trans recent grows.nextId, ?_⟩
    rwa [Context.rests, Context.about_of_amid (List.mem_singleton_self _) same]
  activate own outside sheds := sheds.visit past own outside .evaluate
  halt own outside sheds := sheds.visit past own outside .stop

theorem sheds_delivers (wake : Wake) : @Delivers H id wake (Sheds id floor old rests gone)
    (Sheds id floor old rests gone) where
  heard own outside sheds := sheds.visit past own outside (.resume wake)
  unheard sheds _ _ := sheds

end Shedding

namespace Session

variable {tree : Tree H} {session : Session H tree}

theorem wake_misses {wake : Wake} (misses : session.live.Misses wake) :
    session.wake wake = (session, []) := by
  unfold Session.wake resume
  split
  · rw [resume_stale wake tree session.live session.cx ((stale_iff session.live).mpr misses)]
  · rfl

theorem dispatch_reachable (wakes : List Wake) (reached : session.live.Reachable) :
    (dispatch wake wakes session).1.live.Reachable := by
  refine dispatch_keeps (fun session => session.live.Reachable) ?_ _ _ reached
  intro due session reached
  unfold Session.wake
  split
  · exact .woken due session.cx reached
  · exact reached

theorem misses_of_waiting (distinct : (tree.labels.map Label.id).Nodup)
    (reached : session.live.Reachable) {due : Wake}
    (waits : ∃ part ∈ session.live.parts, part.tree.id = due.node ∧ part.live.status = .waiting) :
    session.live.Misses due := by
  obtain ⟨part, member, named, waits⟩ := waits
  rintro other there own
  rw [← parts_ids session.live] at distinct
  obtain rfl := List.inj_on_of_nodup_map distinct there member (own.trans named.symm)
  have upheld := forall_parts (fun part => part.live.Reachable) (fun _ => Live.Reachable.children) _
    reached other there
  have misses : other.live.Misses due :=
    (stale_iff other.live).mp (stale_of_unheld (upheld.unheld waits))
  rw [Live.Misses, parts_eq_cons] at misses
  exact misses _ List.mem_cons_self own

theorem dispatch_nextId (wakes : List Wake) :
    session.cx.agenda.nextId ≤ (dispatch wake wakes session).1.cx.agenda.nextId := by
  refine dispatch_keeps (fun later => session.cx.agenda.nextId ≤ later.cx.agenda.nextId) ?_ _ _
    (Nat.le_refl _)
  intro due later grows
  unfold Session.wake resume
  split
  · exact Nat.le_trans grows (visit_nextId later.live later.cx (.resume due))
  · exact grows

theorem dispatch_misses (numbered : tree.Numbered) {due : Wake}
    (past : due.task < session.cx.agenda.nextId) (wakes : List Wake)
    (quits : session.live.Misses due ∨
      (dispatch wake wakes session).1.cx.rests due.node ≠ session.cx.rests due.node) :
    (dispatch wake wakes session).1.live.Misses due := by
  intro part there own
  by_cases member : due.node ∈ tree.labels.map Label.id
  · have sheds : session.Tracks due.node (Sheds due.node session.cx.agenda.nextId due.task
        (session.cx.rests due.node) (session.live.Misses due)) := by
      refine tracks_of_forall numbered.distinct member fun part there own => ⟨Nat.le_refl _, ?_⟩
      rintro (misses | moved)
      · exact misses part there own
      · exact absurd rfl moved
    have kept := dispatch_tracks numbered (clears_singleton _ tree) (sheds_follows past)
      (fun other (_ : other ∈ wakes) => sheds_delivers past other) sheds
    exact (kept.of_mem there own).apart quits
  · refine absurd ?_ member
    rw [← parts_ids (dispatch wake wakes session).1.live, ← own]
    exact List.mem_map_of_mem there

end Session

/-- A wake for a task that its node does not hold changes nothing, whatever state the tree is in. In
a tick this is so for every wake whose node did not hold the task any more at some point of the
batch, or waited then, or was stopped from there on before the wake came, even if it runs again by
then. -/
theorem stale_wakes_change_nothing {sources : Build.Sources H} {graph : Graph} {built : Built H}
    (ok : build sources graph = .ok built) (scene : Scene H.Target) (sampler : H.Sampler)
    {queue : Agenda} (made : queue.Made) (commands : List (Command H)) :
    let start : Session H built.tree := ⟨Live.initial built.tree, ⟨scene, queue, sampler, []⟩⟩
    let session := start.run commands
    (∀ (state : Session H built.tree) (wake : Wake), state.live.Misses wake →
      state.wake wake = (state, [])) ∧
    ∀ (delta : Nat) (first middle back : List Wake) (due : Wake),
      (session.advance delta).1 = first ++ middle ++ due :: back →
      let early := (Session.dispatch Session.wake first (session.advance delta).2).1
      let late := (Session.dispatch Session.wake middle early).1
      early.live.Misses due ∨
        (∃ part ∈ early.live.parts, part.tree.id = due.node ∧ part.live.status = .waiting) ∨
        late.cx.rests due.node ≠ early.cx.rests due.node → late.wake due = (late, []) := by
  intro start session
  refine ⟨fun state wake misses => Session.wake_misses misses, ?_⟩
  intro delta first middle back due batch early late quits
  have counted := (build_consecutive ok).1
  have shares : session.Shares [] := by
    apply Session.run_shares counted commands
    refine ⟨queue.tasks.map Task.handle, [], ?_⟩
    rw [initial_handles]
    exact made.balanced
  have old : due.task < session.cx.agenda.nextId := by
    refine Session.due_old shares delta due ?_
    rw [batch]
    exact List.mem_append_right _ List.mem_cons_self
  have grows : (session.advance delta).2.cx.agenda.nextId ≤ early.cx.agenda.nextId :=
    Session.dispatch_nextId first
  have past : due.task < early.cx.agenda.nextId := Nat.lt_of_lt_of_le old grows
  have reached : early.live.Reachable :=
    Session.dispatch_reachable first (Session.run_reachable commands .fresh)
  apply Session.wake_misses
  apply Session.dispatch_misses counted.numbered past middle
  rcases quits with misses | waits | stopped
  · exact .inl misses
  · exact .inl (Session.misses_of_waiting counted.numbered.distinct reached waits)
  · exact .inr stopped

section Laps

def Rehearsal.laps : Graph where
  nodes := [
    { kind := "Root", id := "root", children := ["again"], params := {} },
    { kind := "Repeater", id := "again", children := ["race"], params := {} },
    { kind := "SimpleParallel", id := "race", children := ["run", "music"], params := {} },
    { kind := "ActionNode", id := "run", params := {
        unit := some "Act", inputs := [.literal "run", .literal "", .literal "-s", .literal ""] } },
    Rehearsal.steady "music"]

/-- When the lap is done the music is stopped and started again, before its old wake comes. -/
theorem laps_music_plays_on : ∃ built, build rehearsed Rehearsal.laps = .ok built ∧
    let session := built.fresh.run [.evaluate]
    let told := (Session.dispatch Session.wake [⟨3, 0⟩] (session.advance 0).2).1
    (session.advance 0).1 = [⟨3, 0⟩, ⟨4, 1⟩] ∧ ⟨4, 3, false⟩ ∈ told.live.handles ∧
      told.wake ⟨4, 1⟩ = (told, []) ∧ built.fresh.wake ⟨4, 1⟩ = (built.fresh, []) := by
  have course : ((build rehearsed Rehearsal.laps).toOption.map fun built =>
      let session := built.fresh.run [.evaluate]
      let told := (Session.dispatch Session.wake [⟨3, 0⟩] (session.advance 0).2).1
      decide ((session.advance 0).1 = [⟨3, 0⟩, ⟨4, 1⟩] ∧ ⟨4, 3, false⟩ ∈ told.live.handles ∧
        told.cx.rests 4 ≠ (session.advance 0).2.cx.rests 4)) = some true := by decide +kernel
  cases ok : build rehearsed Rehearsal.laps with
  | error _ => rw [ok] at course; cases course
  | ok built =>
    rw [ok] at course
    obtain ⟨batch, plays, stopped⟩ := of_decide_eq_true (Option.some.inj course)
    obtain ⟨inert, late⟩ := stale_wakes_change_nothing ok ⟨⟨[]⟩, built.blackboard⟩
      (Sampler.ofSeed 0) .empty [.evaluate]
    refine ⟨built, rfl, batch, plays, late 0 [] [⟨3, 0⟩] [] ⟨4, 1⟩ batch (.inr (.inr stopped)), ?_⟩
    exact inert built.fresh ⟨4, 1⟩ ((stale_iff _).mp (stale_of_unheld (initial_handles _)))

end Laps

end ReactiveTree
