import ReactiveTree.Proofs.Orphans

/-!
Runs of a tree: its host activates it, lets time pass, stops it, and changes what its units see, in
any order. The books of the agenda are balanced after every call of a run, but for the tasks that
were overwritten on the way.
-/

namespace ReactiveTree

variable {H : Host} {tree : Tree H}

/-- What a host does with a tree. A change of the scene stands for the writes of the host. -/
inductive Command (H : Host) where
  | evaluate
  | tick (delta : Nat)
  | stop
  | change (edit : Scene H.Target → Scene H.Target)

namespace Session

def edit (session : Session H tree) (edit : Scene H.Target → Scene H.Target) : Session H tree :=
  { session with cx := { session.cx with scene := edit session.cx.scene } }

def perform (session : Session H tree) : Command H → Session H tree
  | .evaluate => session.evaluate.1
  | .tick delta => (session.tick delta).1
  | .stop => session.stop
  | .change edit => session.edit edit

def run (session : Session H tree) (commands : List (Command H)) : Session H tree :=
  commands.foldl perform session

/-- What a host hears who makes one call after the other, each by `call`: the report of the call,
beside the session after it. -/
def history {Request : Type} (call : Session H tree → Request → Session H tree × Report) :
    List Request → Session H tree → List (Report × Session H tree)
  | [], _ => []
  | request :: rest, session =>
    let answered := call session request
    (answered.2, answered.1) :: history call rest answered.1

theorem dispatch_keeps (keeps : Session H tree → Prop)
    (wakes : ∀ due session, keeps session → keeps (session.wake due).1) (due : List Wake)
    (session : Session H tree) (kept : keeps session) :
    keeps (dispatch wake due session).1 := by
  induction due generalizing session with
  | nil => exact kept
  | cons first rest ih => exact ih _ (wakes first session kept)

theorem dispatch_append (front back : List Wake) (session : Session H tree) :
    (dispatch wake (front ++ back) session).1 =
      (dispatch wake back (dispatch wake front session).1).1 := by
  induction front generalizing session with
  | nil => rfl
  | cons first rest ih => exact ih (session.wake first).1

section Beside

variable {H' : Host} {tree' : Tree H'} (rel : Session H tree → Session H' tree' → Prop)
  {session : Session H tree} {other : Session H' tree'}

theorem dispatch_beside {deliver : Wake → Session H tree → Session H tree × Report}
    {deliver' : Wake → Session H' tree' → Session H' tree' × Report}
    (wakes : ∀ due session other, rel session other →
      rel (deliver due session).1 (deliver' due other).1 ∧
        (deliver due session).2 = (deliver' due other).2)
    (due : List Wake) (related : rel session other) :
    rel (dispatch deliver due session).1 (dispatch deliver' due other).1 ∧
      (dispatch deliver due session).2 = (dispatch deliver' due other).2 := by
  induction due generalizing session other with
  | nil => exact ⟨related, rfl⟩
  | cons first rest ih =>
    obtain ⟨woken, said⟩ := wakes first _ _ related
    obtain ⟨dispatched, told⟩ := ih woken
    exact ⟨dispatched, congrArg₂ (· ++ ·) said told⟩

theorem history_beside {Request Request' : Type} {translate : Request → Request'}
    {call : Session H tree → Request → Session H tree × Report}
    {call' : Session H' tree' → Request' → Session H' tree' × Report}
    (calls : ∀ request session other, rel session other →
      rel (call session request).1 (call' other (translate request)).1 ∧
        (call session request).2 = (call' other (translate request)).2)
    (requests : List Request) (related : rel session other) :
    List.Forall₂ (fun said said' => said.1 = said'.1 ∧ rel said.2 said'.2)
      (history call requests session) (history call' (requests.map translate) other) := by
  induction requests generalizing session other with
  | nil => exact .nil
  | cons request rest ih =>
    obtain ⟨answered, said⟩ := calls request _ _ related
    exact .cons ⟨said, answered⟩ (ih answered)

end Beside

/-- The handles that a batch of wakes overwrites, the last ones in front. -/
def dispatchOrphans : List Wake → Session H tree → List Handle
  | [], _ => []
  | due :: rest, session =>
    dispatchOrphans rest (session.wake due).1 ++
      if tree.covers due.node then orphaned due tree session.live session.cx else []

def commandOrphans (session : Session H tree) : Command H → List Handle
  | .tick delta => dispatchOrphans (session.advance delta).1 (session.advance delta).2
  | _ => []

def orphans (session : Session H tree) : List (Command H) → List Handle
  | [] => []
  | command :: rest =>
    (session.perform command).orphans rest ++ session.commandOrphans command

/-- The books of a session between two calls. -/
def Accounted (session : Session H tree) (due : List Wake) (lost : List Handle) : Prop :=
  Balanced due session.live.handles lost session.cx.agenda

variable {session : Session H tree} {due : List Wake} {lost : List Handle}

theorem wake_accounted (numbered : tree.Numbered) (first : Wake)
    (accounted : session.Accounted (first :: due) lost) :
    (session.wake first).1.Accounted due
      ((if tree.covers first.node then orphaned first tree session.live session.cx else []) ++
        lost) := by
  have delivered := accounted.deliver
  unfold wake
  split
  · have turned := resume_balanced first tree numbered session.live session.cx
      (by rwa [← List.append_nil (List.filter _ _)] at delivered)
    rwa [List.append_nil] at turned
  · -- a wake for no node of the tree spends nothing that the tree holds
    rename_i uncovered
    have spare := spared_uncovered session.live numbered uncovered
    unfold spared at spare
    rwa [spare] at delivered

theorem dispatch_accounted (numbered : tree.Numbered) {rest : List Wake}
    (accounted : session.Accounted (due ++ rest) lost) :
    (dispatch wake due session).1.Accounted rest (dispatchOrphans due session ++ lost) := by
  induction due generalizing session lost with
  | nil => exact accounted
  | cons first due ih =>
    have woken := ih (wake_accounted numbered first accounted)
    rwa [← List.append_assoc] at woken

theorem perform_accounted (numbered : tree.Numbered) (command : Command H)
    (accounted : session.Accounted [] lost) :
    (session.perform command).Accounted [] (session.commandOrphans command ++ lost) := by
  have whole := accounted
  unfold Accounted at whole
  rw [← List.append_nil session.live.handles] at whole
  cases command with
  | evaluate =>
    have active := evaluate_balanced tree session.live session.cx whole
    rwa [List.append_nil] at active
  | tick delta =>
    exact dispatch_accounted numbered ((List.append_nil _).symm ▸ Balanced.advance accounted delta)
  | stop =>
    have halted := stop_keeps tree session.live session.cx whole
    rwa [List.append_nil] at halted
  | change edit => exact accounted

/-- After every call of a run the tasks of the agenda are those held and those overwritten. -/
theorem run_accounted (numbered : tree.Numbered) (commands : List (Command H))
    (accounted : session.Accounted [] lost) :
    (session.run commands).Accounted [] (session.orphans commands ++ lost) := by
  induction commands generalizing session lost with
  | nil => exact accounted
  | cons command rest ih =>
    have ran := ih (perform_accounted numbered command accounted)
    rwa [← List.append_assoc] at ran

theorem start_accounted (scene : Scene H.Target) (sampler : H.Sampler) :
    (start tree scene sampler).Accounted [] [] := by
  unfold Accounted start
  rw [initial_handles]
  exact Balanced.start

end Session

section Tasks

variable {sources : Build.Sources H} {graph : Graph} {built : Built H}

theorem built_accounted (ok : build sources graph = .ok built) (scene : Scene H.Target)
    (sampler : H.Sampler) (commands : List (Command H)) :
    let session := Session.start built.tree scene sampler
    (session.run commands).Accounted [] (session.orphans commands) := by
  have ran := Session.run_accounted (build_consecutive ok).1.numbered commands
    (Session.start_accounted scene sampler)
  rwa [List.append_nil] at ran

theorem Session.Accounted.tasks_perm {tree : Tree H} {session : Session H tree}
    {lost : List Handle} (accounted : session.Accounted [] lost) :
    (session.cx.agenda.tasks.map Task.handle).Perm (session.live.handles ++ lost) := by
  have posted := accounted.posted
  rwa [List.filter_eq_self.mpr fun handle _ => handle.waits_nil] at posted

theorem Session.Accounted.not_held {tree : Tree H} {session : Session H tree}
    {lost : List Handle} (accounted : session.Accounted [] lost) {handle : Handle}
    (member : handle ∈ lost) : handle ∉ session.live.handles := by
  intro held
  have distinct := accounted.distinct
  rw [List.map_append, List.nodup_append] at distinct
  exact distinct.2.2 _ (List.mem_map_of_mem held) _ (List.mem_map_of_mem member) rfl

/-- After a run, every task of the agenda is held by the node it is addressed to exactly if the run
overwrote no handle. Those it overwrote stay in the agenda, whatever is called later, and are what a
stop leaves behind. -/
theorem tasks_held_iff_no_orphans (ok : build sources graph = .ok built) (scene : Scene H.Target)
    (sampler : H.Sampler) (commands : List (Command H)) :
    let start := Session.start built.tree scene sampler
    let session := start.run commands
    ((∀ task ∈ session.cx.agenda.tasks, task.handle ∈ session.live.handles) ↔
      start.orphans commands = []) ∧
    (∀ handle ∈ start.orphans commands, handle ∉ session.live.handles ∧
      ∃ task ∈ session.cx.agenda.tasks, task.handle = handle) ∧
    session.stop.cx.agenda.pending = (start.orphans commands).length := by
  intro start session
  have accounted : session.Accounted [] (start.orphans commands) :=
    built_accounted ok scene sampler commands
  have tasks := accounted.tasks_perm
  have pending : ∀ handle ∈ start.orphans commands,
      ∃ task ∈ session.cx.agenda.tasks, task.handle = handle := by
    intro handle member
    exact List.mem_map.mp (tasks.mem_iff.mpr (List.mem_append_right _ member))
  refine ⟨?_, ?_, ?_⟩
  · constructor
    · -- an overwritten handle is in the agenda and in nobody's hands
      intro held
      apply List.eq_nil_iff_forall_not_mem.mpr
      intro handle member
      obtain ⟨task, there, rfl⟩ := pending handle member
      exact accounted.not_held member (held task there)
    · intro none task there
      have found := tasks.mem_iff.mp (List.mem_map_of_mem there)
      rwa [none, List.append_nil] at found
  · intro handle member
    exact ⟨accounted.not_held member, pending handle member⟩
  · have stopped := Session.perform_accounted (build_consecutive ok).1.numbered .stop accounted
    have left := stopped.tasks_perm.length_eq
    rw [List.length_map, show (session.perform .stop).live.handles = [] from stop_handles _ _ _]
      at left
    exact left

end Tasks

section Restless

open Rehearsal

def Built.fresh (built : Built Rehearsal) : Session Rehearsal built.tree :=
  Session.start built.tree ⟨⟨[]⟩, built.blackboard⟩ (Sampler.ofSeed 0)

theorem restless_tasks : ∃ built, build rehearsed restless = .ok built ∧
    (built.fresh.orphans [.evaluate, .tick 0]).length = 1 ∧
    (built.fresh.run [.evaluate, .tick 0]).stop.cx.agenda.pending = 1 := by
  obtain ⟨built, ok⟩ := restless_builds
  have overwritten : ((build rehearsed restless).toOption.map fun built =>
      (built.fresh.orphans [.evaluate, .tick 0]).length) = some 1 := by decide +kernel
  rw [ok] at overwritten
  have overwritten := Option.some.inj overwritten
  have left := (tasks_held_iff_no_orphans ok ⟨⟨[]⟩, built.blackboard⟩ (Sampler.ofSeed 0)
    [.evaluate, .tick 0]).2.2
  exact ⟨built, ok, overwritten, left.trans overwritten⟩

/-- The gate ends twice in the one tick, and a task outlives the stop. -/
theorem restless_leaves_task :
    (build rehearsed restless).toOption.map (fun built =>
      let session := built.fresh.run [.evaluate, .tick 0]
      (decide (∀ task ∈ session.cx.agenda.tasks, task.handle ∈ session.live.handles),
        session.stop.cx.agenda.pending)) = some (false, 1) := by
  decide +kernel

end Restless

end ReactiveTree
