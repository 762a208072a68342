import ReactiveTree.Proofs.Delivery

/-!
The protocol that the unit of an action may rely on, over whole runs of a tree. In a tick the agenda
hands out each task once, and old tasks only, so an action that runs when the tick begins is woken
once in it, and one that begins in the tick is not woken before the next.
-/

namespace ReactiveTree

variable {H : Host}

mutual

theorem initial_postures (id : Nat) : (tree : Tree H) → (Live.initial tree).postures id =
    (tree.nodes.filter fun node => node.kind = .actionNode ∧ node.id = id).map
      fun _ => .holding none
  | .relay role label child => by
    rw [Tree.nodes, List.filter_cons_of_neg (by simp [Tree.kind, role.kind_ne])]
    exact initial_postures id child
  | .repeater label child | .loop label _ child | .gate label _ _ _ child =>
    initial_postures id child
  | .ordered order label children => by
    rw [Tree.nodes, List.filter_cons_of_neg (by simp [Tree.kind, order.kind_ne])]
    exact initial_postures_all id children
  | .weighted label _ children => initial_postures_all id children
  | .parallel label main background => by
    rw [Live.initial, postures_parallel, initial_postures id main, initial_postures id background,
      Tree.nodes, List.filter_cons_of_neg (by simp [Tree.kind]), List.filter_append,
      List.map_append]
  | .condition label unit => rfl
  | .action label unit => by
    by_cases own : label.id = id
    · subst own
      rw [Live.initial, postures_own]
      simp [Tree.nodes, Tree.kind, Tree.id, Tree.label, Posture.holding, Status.isRunning]
    · rw [Live.initial, postures_other own]
      simp [Tree.nodes, Tree.kind, Tree.id, Tree.label, own]

theorem initial_postures_all (id : Nat) : (trees : Forest H) →
    (LiveForest.initial trees).postures id =
      (trees.nodes.filter fun node => node.kind = .actionNode ∧ node.id = id).map
        fun _ => .holding none
  | .nil => rfl
  | .cons tree trees => by
    rw [LiveForest.initial, postures_cons, initial_postures id tree, initial_postures_all id trees,
      Forest.nodes, List.filter_append, List.map_append]

end

/-- An agenda that came about by what can be done with one, whoever did it. -/
inductive Agenda.Made : Agenda → Prop
  | empty : Made {}
  | everyTick {agenda : Agenda} (made : Made agenda) (node : Nat) : Made (agenda.everyTick node).2
  | after {agenda : Agenda} (made : Made agenda) (node delay : Nat) :
      Made (agenda.after node delay).2
  | cancel {agenda : Agenda} (made : Made agenda) (task : Nat) : Made (agenda.cancel task)
  | advance {agenda : Agenda} (made : Made agenda) (delta : Nat) : Made (agenda.advance delta).2

namespace Agenda

structure Numbered (agenda : Agenda) : Prop where
  distinct : (agenda.tasks.map Task.id).Nodup
  given : ∀ task ∈ agenda.tasks, task.id < agenda.nextId

theorem Numbered.register {agenda : Agenda} (numbered : agenda.Numbered) (node : Nat)
    (trigger : Trigger) : (agenda.register node trigger).2.Numbered := by
  constructor
  · simp only [Agenda.register, List.map_append, List.map_cons, List.map_nil]
    apply List.nodup_append.mpr
    refine ⟨numbered.distinct, List.nodup_singleton _, ?_⟩
    rintro _ member _ new rfl
    obtain ⟨task, there, same⟩ := List.mem_map.mp member
    exact Nat.ne_of_lt (numbered.given task there) (same.trans (List.mem_singleton.mp new))
  · intro task member
    rcases List.mem_append.mp member with there | new
    · exact Nat.lt_succ_of_lt (numbered.given task there)
    · rw [List.mem_singleton.mp new]
      exact Nat.lt_succ_self _

theorem Numbered.filter {agenda after : Agenda} (numbered : agenda.Numbered)
    (fewer : after.tasks.Sublist agenda.tasks) (same : after.nextId = agenda.nextId) :
    after.Numbered := by
  constructor
  · exact numbered.distinct.sublist (fewer.map Task.id)
  · intro task member
    exact same ▸ numbered.given task (fewer.subset member)

theorem Made.numbered {agenda : Agenda} (made : agenda.Made) : agenda.Numbered := by
  induction made with
  | empty => exact ⟨List.nodup_nil, nofun⟩
  | everyTick _ node ih => exact ih.register node .everyTick
  | @after agenda _ node delay ih =>
    have late : Numbered { agenda with
        overrun := agenda.overrun || lastInstant < agenda.now + delay } :=
      ⟨ih.distinct, ih.given⟩
    exact late.register node (.deadline (agenda.now + delay))
  | cancel _ task ih => exact ih.filter List.filter_sublist rfl
  | advance _ delta ih => exact ih.filter List.filter_sublist rfl

/-- The tasks of an agenda are on the books of its users. -/
theorem Made.balanced {agenda : Agenda} (made : agenda.Made) :
    Balanced [] (agenda.tasks.map Task.handle) [] agenda := by
  obtain ⟨distinct, given⟩ := made.numbered
  constructor
  · rw [List.filter_eq_self.mpr fun handle _ => handle.waits_nil, List.append_nil]
  · rw [List.append_nil, List.map_map]
    exact distinct
  · rw [List.append_nil]
    exact List.forall_mem_map.mpr given
  · nofun
  · nofun

end Agenda

theorem handle_of_posture {tree : Tree H} {live : Live H tree} {start id task : Nat} {runs : Bool}
    (counted : Consecutive start tree.labels) (attended : live.Attended)
    (held : ⟨runs, some task⟩ ∈ live.postures id) : ⟨id, task, false⟩ ∈ live.handles := by
  obtain ⟨part, member, found⟩ := List.mem_filterMap.mp held
  obtain ⟨label, bound, unit, status, rfl, rfl, _⟩ := posture?_eq_some found
  exact (parts_sound live counted attended _ member).within (List.mem_singleton_self _)

namespace Session

variable {tree : Tree H} {session middle after : Session H tree} {id floor : Nat}
  {before task : Option Nat}

/-- The action with the id holds the task, or none and does not run. -/
def Holds (id : Nat) (task : Option Nat) (session : Session H tree) : Prop :=
  session.live.postures id = [.holding task]

structure Moves (id : Nat) (rule : Option Nat → List Deed → Option Nat → Prop)
    (session after : Session H tree) : Prop where
  grows : session.cx.agenda.nextId ≤ after.cx.agenda.nextId
  follows : ∃ before deeds task, session.Holds id before ∧ after.Holds id task ∧
    after.cx.deeds id = session.cx.deeds id ++ deeds ∧ rule before deeds task

section Calls

variable {rule : Option Nat → List Deed → Option Nat → Prop}

theorem Holds.unique (holds : session.Holds id before) (also : session.Holds id task) :
    task = before := by
  have same := List.head_eq_of_cons_eq (also.symm.trans holds)
  exact (Posture.mk.inj same).2

theorem Moves.imp {other : Option Nat → List Deed → Option Nat → Prop}
    (moves : session.Moves id rule after) (implies : ∀ held deeds task, session.Holds id held →
      rule held deeds task → other held deeds task) : session.Moves id other after := by
  obtain ⟨held, deeds, task, holds, ends, did, ruled⟩ := moves.follows
  exact ⟨moves.grows, held, deeds, task, holds, ends, did, implies held deeds task holds ruled⟩

theorem moves_of_reached {story : Story session.cx.agenda.nextId}
    (holds : session.Holds id before) (tells : ∀ deeds task, story.tells deeds task →
      rule before deeds task)
    (reached : Reached id (session.cx.deeds id) story (after.live.postures id ++ []) after.cx) :
    session.Moves id rule after := by
  obtain ⟨task, deeds, posed, did, told⟩ := reached.follows
  rw [List.append_nil] at posed
  exact ⟨reached.recent, before, deeds, task, holds, posed, did, tells deeds task told⟩

theorem evaluate_moves (holds : session.Holds id before) :
    session.Moves id (Course session.cx.agenda.nextId) session.evaluate.1 := by
  have reached : Reached id (session.cx.deeds id) (.course session.cx.agenda.nextId before)
      (session.live.postures id ++ []) session.cx := by
    rw [List.append_nil]
    exact ⟨Nat.le_refl _, before, [], holds, (List.append_nil _).symm, .rest before⟩
  exact moves_of_reached holds (fun _ _ told => told)
    (evaluate_reached tree session.live session.cx reached)

theorem stop_moves (holds : session.Holds id before) :
    session.Moves id (fun held deeds task => Halted held.isSome deeds ∧ task = none)
      session.stop := by
  have hushed := stop_hushes id tree session.live session.cx
  rw [holds] at hushed
  obtain ⟨deeds, halted, did, quiet⟩ := hushed.deeds_singleton
  exact ⟨Nat.le_of_eq hushed.still.symm, before, deeds, none, holds, quiet, did, halted, rfl⟩

theorem wake_moves (counted : Consecutive 0 tree.labels) (holds : session.Holds id before)
    (due : Wake) :
    session.Moves id (Heard session.cx.agenda.nextId id due) (session.wake due).1 := by
  have stands : Stands id session.cx.agenda.nextId (session.cx.deeds id) before
      (session.live.postures id ++ []) session.cx := by
    rw [List.append_nil]
    exact ⟨Nat.le_refl _, holds, rfl⟩
  unfold wake
  split
  · exact moves_of_reached holds (fun _ _ told => told)
      (resume_heard due tree 0 counted session.live session.cx (fun _ => rfl) stands)
  · rename_i uncovered
    exact moves_of_reached holds (fun _ _ told => told)
      (stands.passes session.live counted uncovered fun _ => rfl)

theorem Moves.trans (first : session.Moves id (Course floor) middle)
    (second : middle.Moves id (Course floor) after) : session.Moves id (Course floor) after := by
  obtain ⟨before, deeds, task, holds, held, did, course⟩ := first.follows
  obtain ⟨task', more, last, holds', ends, did', course'⟩ := second.follows
  obtain rfl := held.unique holds'
  refine ⟨Nat.le_trans first.grows second.grows, before, deeds ++ more, last, holds, ends, ?_,
    course.trans course'⟩
  rw [did', did, List.append_assoc]

/-- A task that was taken up since is newer than all wakes of the batch. -/
theorem stays_apart {due : List Wake}
    (recent : task = before ∨ ∀ held, task = some held → floor ≤ held)
    (old : ∀ wake ∈ due, wake.task < floor) (apart : ∀ wake ∈ due, before ≠ some wake.task) :
    ∀ wake ∈ due, task ≠ some wake.task := by
  intro wake member same
  rcases recent with rfl | recent
  · exact apart wake member same
  · exact Nat.not_le.mpr (old wake member) (recent wake.task same)

theorem dispatch_moves (counted : Consecutive 0 tree.labels) (due : List Wake)
    (holds : session.Holds id before) (recent : floor ≤ session.cx.agenda.nextId)
    (old : ∀ wake ∈ due, wake.task < floor) (apart : ∀ wake ∈ due, before ≠ some wake.task) :
    session.Moves id (Course floor) (dispatch wake due session).1 := by
  induction due generalizing session before with
  | nil => exact ⟨Nat.le_refl _, before, [], before, holds, holds, (List.append_nil _).symm,
      .rest before⟩
  | cons first rest ih =>
    obtain ⟨isOld, old⟩ := List.forall_mem_cons.mp old
    obtain ⟨isApart, apart⟩ := List.forall_mem_cons.mp apart
    have woken := wake_moves counted holds first
    have moved : session.Moves id (Course floor) (session.wake first).1 := by
      apply woken.imp
      intro held deeds task holds' heard
      obtain rfl := holds.unique holds'
      exact (heard.course fun own => isApart own.2).mono recent
    obtain ⟨_, deeds, task, holds', ends, _, course⟩ := moved.follows
    obtain rfl := holds.unique holds'
    have later := stays_apart course.recent old apart
    exact moved.trans (ih ends (Nat.le_trans recent woken.grows) old later)

end Calls

/-- The books of a tree and of others that use the same agenda. -/
def Shares (session : Session H tree) (due : List Wake) : Prop :=
  ∃ others lost, Balanced due (session.live.handles ++ others) lost session.cx.agenda

section Books

variable {due : List Wake}

theorem wake_shares (counted : Consecutive 0 tree.labels) (first : Wake)
    (shares : session.Shares (first :: due)) : (session.wake first).1.Shares due := by
  obtain ⟨others, lost, balanced⟩ := shares
  have delivered := balanced.deliver
  rw [List.filter_append] at delivered
  unfold wake
  split
  · exact ⟨_, _, resume_balanced first tree counted.numbered session.live session.cx delivered⟩
  · rename_i uncovered
    have spare := spared_uncovered session.live counted.numbered uncovered
    unfold spared at spare
    rw [spare] at delivered
    exact ⟨_, lost, delivered⟩

theorem dispatch_shares (counted : Consecutive 0 tree.labels) (shares : session.Shares due) :
    (dispatch wake due session).1.Shares [] := by
  induction due generalizing session with
  | nil => exact shares
  | cons first rest ih => exact ih (wake_shares counted first shares)

theorem perform_shares (counted : Consecutive 0 tree.labels) (command : Command H)
    (shares : session.Shares []) : (session.perform command).Shares [] := by
  obtain ⟨others, lost, balanced⟩ := shares
  cases command with
  | evaluate => exact ⟨others, lost, evaluate_balanced tree session.live session.cx balanced⟩
  | tick delta => exact dispatch_shares counted ⟨others, lost, balanced.advance delta⟩
  | stop => exact ⟨others, lost, stop_keeps tree session.live session.cx balanced⟩
  | change edit => exact ⟨others, lost, balanced⟩

theorem run_shares (counted : Consecutive 0 tree.labels) (commands : List (Command H))
    (shares : session.Shares []) : (session.run commands).Shares [] := by
  induction commands generalizing session with
  | nil => exact shares
  | cons command rest ih => exact ih (perform_shares counted command shares)

theorem Shares.posted (shares : session.Shares []) : ∃ rest,
    (session.cx.agenda.tasks.map Task.handle).Perm (session.live.handles ++ rest) ∧
      ((session.live.handles ++ rest).map Handle.task).Nodup := by
  obtain ⟨others, lost, balanced⟩ := shares
  have posted := balanced.posted
  rw [List.filter_eq_self.mpr fun handle _ => handle.waits_nil, List.append_assoc] at posted
  have distinct := balanced.distinct
  rw [List.append_assoc] at distinct
  exact ⟨others ++ lost, posted, distinct⟩

end Books

section Ticks

theorem due_old (shares : session.Shares []) (delta : Nat) :
    ∀ wake ∈ (session.advance delta).1, wake.task < session.cx.agenda.nextId := by
  obtain ⟨others, lost, balanced⟩ := shares
  exact (balanced.advance delta).past

theorem due_distinct (shares : session.Shares []) (delta : Nat) :
    ((session.advance delta).1.map Wake.task).Nodup := by
  obtain ⟨rest, posted, distinct⟩ := shares.posted
  have ids : (session.cx.agenda.tasks.map Task.id).Nodup := by
    have same := (posted.map Handle.task).nodup_iff.mpr distinct
    rwa [List.map_map] at same
  have fewer : ((session.advance delta).1.map Wake.task).Sublist
      (session.cx.agenda.tasks.map Task.id) := by
    rw [advance, Agenda.advance, List.map_map]
    exact List.filter_sublist.map Task.id
  exact ids.sublist fewer

theorem due_split (shares : session.Shares []) (delta : Nat) {own : Wake}
    (member : own ∈ (session.advance delta).1) : ∃ front back,
    (session.advance delta).1 = front ++ own :: back ∧
      (∀ wake ∈ front, wake.task ≠ own.task) ∧ ∀ wake ∈ back, wake.task ≠ own.task := by
  obtain ⟨front, back, batch⟩ := List.append_of_mem member
  have distinct := due_distinct shares delta
  rw [batch, List.map_append, List.map_cons, List.nodup_middle, List.nodup_cons,
    List.mem_append, not_or] at distinct
  obtain ⟨⟨before, after⟩, _⟩ := distinct
  refine ⟨front, back, batch, ?_, ?_⟩
  · exact fun wake there same => before (same ▸ List.mem_map_of_mem there)
  · exact fun wake there same => after (same ▸ List.mem_map_of_mem there)

theorem due_mem {task : Nat} (shares : session.Shares []) (delta : Nat)
    (held : ⟨id, task, false⟩ ∈ session.live.handles) :
    ⟨id, task⟩ ∈ (session.advance delta).1 := by
  obtain ⟨rest, posted, _⟩ := shares.posted
  obtain ⟨entry, there, same⟩ :=
    List.mem_map.mp (posted.mem_iff.mpr (List.mem_append_left rest held))
  obtain ⟨rfl, rfl, tick⟩ := Handle.mk.inj same
  refine List.mem_map.mpr ⟨entry, List.mem_filter.mpr ⟨there, ?_⟩, rfl⟩
  cases trigger : entry.trigger with
  | everyTick => rfl
  | deadline time => rw [trigger] at tick; cases tick

theorem tick_moves (counted : Consecutive 0 tree.labels) (shares : session.Shares [])
    (delta : Nat) (holds : session.Holds id none) :
    session.Moves id (Course session.cx.agenda.nextId) (session.tick delta).1 := by
  have moved : (session.advance delta).2.Moves id (Course session.cx.agenda.nextId)
      (session.tick delta).1 :=
    dispatch_moves counted _ holds (Nat.le_refl _) (due_old shares delta) nofun
  exact ⟨moved.grows, moved.follows⟩

theorem tick_wakes (counted : Consecutive 0 tree.labels) (attended : session.live.Attended)
    (shares : session.Shares []) (delta : Nat) {task : Nat}
    (holds : session.Holds id (some task)) :
    ∃ front back, (session.advance delta).1 = front ++ ⟨id, task⟩ :: back ∧
      let told := (dispatch wake front (session.advance delta).2).1
      let woken := (told.wake ⟨id, task⟩).1
      session.Moves id (Course session.cx.agenda.nextId) told ∧
      told.Moves id (Heard session.cx.agenda.nextId id ⟨id, task⟩) woken ∧
      woken.Moves id (Course session.cx.agenda.nextId) (session.tick delta).1 := by
  have posture : (⟨true, some task⟩ : Posture) ∈ session.live.postures id :=
    holds ▸ List.mem_singleton_self _
  have held := handle_of_posture counted attended posture
  obtain ⟨front, back, batch, before, after⟩ := due_split shares delta (due_mem shares delta held)
  have old := due_old shares delta
  rw [batch] at old
  obtain ⟨oldFront, oldRest⟩ := List.forall_mem_append.mp old
  obtain ⟨_, oldBack⟩ := List.forall_mem_cons.mp oldRest
  have apart {wakes : List Wake} (others : ∀ wake ∈ wakes, wake.task ≠ task) :
      ∀ wake ∈ wakes, some task ≠ some wake.task :=
    fun wake member same => others wake member (Option.some.inj same).symm
  let told := (dispatch wake front (session.advance delta).2).1
  let woken := (told.wake ⟨id, task⟩).1
  have standing : (session.advance delta).2.Holds id (some task) := holds
  have ahead : (session.advance delta).2.Moves id (Course session.cx.agenda.nextId) told :=
    dispatch_moves counted front standing (Nat.le_refl _) oldFront (apart before)
  obtain ⟨_, _, middle, begins, reached, _, course⟩ := ahead.follows
  obtain rfl := standing.unique begins
  have heard : told.Moves id (Heard session.cx.agenda.nextId id ⟨id, task⟩) woken :=
    (wake_moves counted reached ⟨id, task⟩).imp fun _ _ _ _ heard => heard.mono ahead.grows
  obtain ⟨_, _, last, holding, resting, _, rule⟩ := heard.follows
  obtain rfl := reached.unique holding
  -- the wakes that are left are for none of the tasks that the action held in the tick
  have remote := stays_apart rule.recent oldBack (stays_apart course.recent oldBack (apart after))
  have rest : woken.Moves id (Course session.cx.agenda.nextId) (dispatch wake back woken).1 :=
    dispatch_moves counted back resting (Nat.le_trans ahead.grows heard.grows) oldBack remote
  have whole : (session.tick delta).1 = (dispatch wake back woken).1 := by
    rw [tick, batch]
    exact dispatch_append front (⟨id, task⟩ :: back) _
  exact ⟨front, back, batch, ⟨ahead.grows, ahead.follows⟩, heard, whole ▸ rest⟩

end Ticks

/-- The action holds a task or none, and what it did so far splits into activations. -/
def Split (id : Nat) (session : Session H tree) : Prop :=
  ∃ task, session.Holds id task ∧ Splits (session.cx.deeds id) task

theorem Moves.split {rule : Option Nat → List Deed → Option Nat → Prop}
    (moves : session.Moves id rule after) (split : session.Split id)
    (keeps : ∀ {deeds held more task}, Splits deeds held → rule held more task →
      Splits (deeds ++ more) task) : after.Split id := by
  obtain ⟨task, holds, splits⟩ := split
  obtain ⟨held, more, last, holds', ends, did, ruled⟩ := moves.follows
  obtain rfl := holds.unique holds'
  exact ⟨last, ends, did ▸ keeps splits ruled⟩

theorem perform_split (counted : Consecutive 0 tree.labels) (command : Command H)
    (split : session.Split id) : (session.perform command).Split id := by
  obtain ⟨task, holds, splits⟩ := split
  cases command with
  | evaluate => exact (evaluate_moves holds).split ⟨task, holds, splits⟩ Splits.course
  | tick delta =>
    apply dispatch_keeps (fun session => session.Split id)
    · rintro due session ⟨task, holds, splits⟩
      exact (wake_moves counted holds due).split ⟨task, holds, splits⟩ Splits.heard
    · exact ⟨task, holds, splits⟩
  | stop =>
    apply (stop_moves holds).split ⟨task, holds, splits⟩
    rintro deeds held more _ splits ⟨halted, rfl⟩
    exact splits.halted halted
  | change edit => exact ⟨task, holds, splits⟩

theorem run_split (counted : Consecutive 0 tree.labels) (commands : List (Command H))
    (split : session.Split id) : (session.run commands).Split id := by
  induction commands generalizing session with
  | nil => exact split
  | cons command rest ih => exact ih (perform_split counted command split)

/-- What the calls that may come next make the action do. A tick wakes it once if it holds a task,
with other wakes before and after, and updates it for that wake if it still holds the task then. -/
structure Protocol (id : Nat) (session : Session H tree) : Prop where
  activates : session.Moves id (Course session.cx.agenda.nextId) session.evaluate.1
  stops : session.Moves id (fun held deeds task => Halted held.isSome deeds ∧ task = none)
    session.stop
  rests : ∀ delta, session.Holds id none →
    session.Moves id (Course session.cx.agenda.nextId) (session.tick delta).1
  wakes : ∀ delta task, session.Holds id (some task) →
    ∃ front back, (session.advance delta).1 = front ++ ⟨id, task⟩ :: back ∧
      let told := (dispatch wake front (session.advance delta).2).1
      let woken := (told.wake ⟨id, task⟩).1
      session.Moves id (Course session.cx.agenda.nextId) told ∧
      told.Moves id (Heard session.cx.agenda.nextId id ⟨id, task⟩) woken ∧
      woken.Moves id (Course session.cx.agenda.nextId) (session.tick delta).1

end Session

theorem initial_holds {tree node : Tree H} (counted : Consecutive 0 tree.labels)
    (member : node ∈ tree.nodes) (action : node.kind = .actionNode) :
    (Live.initial tree).postures node.id = [.holding none] := by
  have distinct : (tree.nodes.map Tree.id).Nodup := by
    rw [nodes_ids, counted]
    exact List.nodup_range'
  have only : (tree.nodes.filter fun other => other.kind = .actionNode ∧ other.id = node.id) =
      [node] := by
    apply List.perm_singleton.mp
    apply (List.perm_ext_iff_of_nodup ((distinct.of_map Tree.id).filter _)
      (List.nodup_singleton node)).mpr
    intro other
    simp only [List.mem_filter, decide_eq_true_eq, List.mem_singleton]
    constructor
    · rintro ⟨there, _, same⟩
      exact List.inj_on_of_nodup_map distinct there member same
    · rintro rfl
      exact ⟨member, action, rfl⟩
  rw [initial_postures, only]
  rfl

/-- The calls that the unit of an action gets in a run split into activations, and every call on the
tree goes on with them. A running action is updated in each tick, once, if it still holds its task
when the wake for it comes; it is told to stop, once, when it is stopped; and nothing else is said to
it between its activation and its end. -/
theorem action_calls_split {sources : Build.Sources H} {graph : Graph} {built : Built H}
    (ok : build sources graph = .ok built) (scene : Scene H.Target) (sampler : H.Sampler)
    {queue : Agenda} (made : queue.Made) (commands : List (Command H)) {node : Tree H}
    (member : node ∈ built.tree.nodes) (action : node.kind = .actionNode) :
    let start : Session H built.tree := ⟨Live.initial built.tree, ⟨scene, queue, sampler, []⟩⟩
    let session := start.run commands
    (∃ task, session.Holds node.id task ∧ Splits (session.cx.deeds node.id) task) ∧
      session.Protocol node.id := by
  intro start session
  have counted := (build_consecutive ok).1
  have split : session.Split node.id :=
    Session.run_split counted commands ⟨none, initial_holds counted member action, .start⟩
  have attended : session.live.Attended :=
    Session.run_attended (built_weighed ok) commands (initial_attended built.tree)
  have shares : session.Shares [] := by
    apply Session.run_shares counted commands
    refine ⟨queue.tasks.map Task.handle, [], ?_⟩
    rw [initial_handles]
    exact made.balanced
  refine ⟨split, ?_⟩
  obtain ⟨_, holds, _⟩ := split
  exact {
    activates := Session.evaluate_moves holds
    stops := Session.stop_moves holds
    rests := fun delta rests => Session.tick_moves counted shares delta rests
    wakes := fun delta _ holds => Session.tick_wakes counted attended shares delta holds }

/-- The action that paces up and down ends with its second update, and the repeater starts it over
in the same tick. -/
theorem errand_pace_splits : ∃ built, build rehearsed Rehearsal.errand = .ok built ∧
    ∃ node ∈ built.tree.nodes, node.kind = .actionNode ∧ node.id = 7 ∧
      let session := built.fresh.run [.evaluate, .tick 0]
      session.cx.deeds 7 =
        opening 1 ++ [.called .update (.finished true), .showed .success] ++ opening 1 ∧
      (∃ task, session.Holds 7 task ∧ Splits (session.cx.deeds 7) task) ∧ session.Protocol 7 := by
  obtain ⟨built, ok, _⟩ := errand_builds
  have paces : ((build rehearsed Rehearsal.errand).toOption.map fun built =>
      built.tree.nodes.any fun node => node.kind = .actionNode ∧ node.id = 7) = some true := by
    decide +kernel
  have deeds : ((build rehearsed Rehearsal.errand).toOption.map fun built =>
      (built.fresh.run [.evaluate, .tick 0]).cx.deeds 7) =
      some (opening 1 ++ [.called .update (.finished true), .showed .success] ++ opening 1) := by
    decide +kernel
  rw [ok] at paces deeds
  obtain ⟨node, member, found⟩ := List.any_eq_true.mp (Option.some.inj paces)
  obtain ⟨action, pace⟩ := of_decide_eq_true found
  have splits := action_calls_split ok ⟨⟨[]⟩, built.blackboard⟩ (Sampler.ofSeed 0) .empty
    [.evaluate, .tick 0] member action
  rw [pace] at splits
  exact ⟨built, ok, node, member, action, pace, Option.some.inj deeds, splits⟩

end ReactiveTree
