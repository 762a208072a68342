import ReactiveTree.Proofs.Attendance
import ReactiveTree.Proofs.Run

/-!
Every node that runs will be woken. A running node is attended by a handle of its own or by a child
that runs, so some node in its part of the tree holds a task, and a task that is held is in the
agenda between two calls.
-/

namespace ReactiveTree

variable {H : Host}

theorem weighed_ofList {trees : List (Tree H)} (weighed : ∀ tree ∈ trees, tree.Weighed) :
    (Forest.ofList trees).Weighed := by
  induction trees with
  | nil => trivial
  | cons tree trees ih =>
    obtain ⟨first, rest⟩ := List.forall_mem_cons.mp weighed
    exact ⟨first, ih rest⟩

theorem length_ofList (trees : List (Tree H)) : (Forest.ofList trees).length = trees.length := by
  induction trees with
  | nil => rfl
  | cons tree trees ih => rw [Forest.ofList, Forest.length, ih, List.length_cons]

theorem built_weighed {sources : Build.Sources H} {graph : Graph} {built : Built H}
    (ok : build sources graph = .ok built) : built.tree.Weighed := by
  apply Build.build_good _ _ ok
  · intro label params kind children tree shapes below
    cases shapes with
    | root child | inverse child | repeater child | loop child | gate child =>
      exact below child (List.mem_singleton_self child)
    | selector | sequencer => exact weighed_ofList below
    | weighted weighed =>
      obtain ⟨fits, filled⟩ := Weights.length_of_bounds weighed
      exact ⟨fits.trans (length_ofList children).symm, fits ▸ filled, weighed_ofList below⟩
    | parallel main background =>
      obtain ⟨first, rest⟩ := List.forall_mem_cons.mp below
      exact ⟨first, List.forall_mem_singleton.mp rest⟩
    | condition | action => trivial
  · exact fun _ _ below => below

structure Part (H : Host) where
  tree : Tree H
  live : Live H tree

mutual

def Live.parts : {tree : Tree H} → Live H tree → List (Part H)
  | _, live@(.relay _ kid) => ⟨_, live⟩ :: kid.parts
  | _, live@(.repeater _ _ kid) => ⟨_, live⟩ :: kid.parts
  | _, live@(.loop _ _ kid) => ⟨_, live⟩ :: kid.parts
  | _, live@(.gate _ _ _ _ kid) => ⟨_, live⟩ :: kid.parts
  | _, live@(.ordered _ kids) => ⟨_, live⟩ :: kids.parts
  | _, live@(.weighted _ _ kids) => ⟨_, live⟩ :: kids.parts
  | _, live@(.parallel _ first second) => ⟨_, live⟩ :: (first.parts ++ second.parts)
  | _, live@(.condition _ _) => [⟨_, live⟩]
  | _, live@(.action _ _ _) => [⟨_, live⟩]

def LiveForest.parts : {trees : Forest H} → LiveForest H trees → List (Part H)
  | _, .nil => []
  | _, .cons head tail => head.parts ++ tail.parts

end

mutual

theorem parts_labels : {tree : Tree H} → (live : Live H tree) →
    live.parts.map (·.tree.label) = tree.labels
  | _, .relay _ kid | _, .repeater _ _ kid | _, .loop _ _ kid | _, .gate _ _ _ _ kid =>
    congrArg (_ :: ·) (parts_labels kid)
  | _, .ordered _ kids | _, .weighted _ _ kids => congrArg (_ :: ·) (parts_labels_all kids)
  | _, .parallel _ first second => by
    rw [Live.parts, List.map_cons, List.map_append, parts_labels first, parts_labels second]
    rfl
  | _, .condition _ _ | _, .action _ _ _ => rfl

theorem parts_labels_all : {trees : Forest H} → (lives : LiveForest H trees) →
    lives.parts.map (·.tree.label) = trees.labels
  | _, .nil => rfl
  | _, .cons head tail => by
    simp only [LiveForest.parts, Forest.labels, List.map_append, parts_labels head,
      parts_labels_all tail]

end

/-- A node that is numbered and attended like the tree it belongs to, which holds `held`. -/
structure Part.Sound (held : List Handle) (part : Part H) : Prop where
  counted : ∃ start, Consecutive start part.tree.labels
  attended : part.live.Attended
  within : part.live.handles ⊆ held

theorem sound_below {tree : Tree H} {live : Live H tree} {start : Nat} {held : List Handle}
    {parts : List (Part H)} (counted : Consecutive start tree.labels) (attended : live.Attended)
    (within : held ⊆ live.handles) (below : ∀ part ∈ parts, part.Sound held) :
    ∀ part ∈ (⟨tree, live⟩ : Part H) :: parts, part.Sound live.handles := by
  intro part member
  rcases List.mem_cons.mp member with rfl | inside
  · exact ⟨⟨start, counted⟩, attended, List.Subset.refl _⟩
  · obtain ⟨counted, attended, held⟩ := below part inside
    exact ⟨counted, attended, List.Subset.trans held within⟩

theorem sound_append {first second : List Handle} {front back : List (Part H)}
    (left : ∀ part ∈ front, part.Sound first) (right : ∀ part ∈ back, part.Sound second) :
    ∀ part ∈ front ++ back, part.Sound (first ++ second) := by
  intro part member
  rcases List.mem_append.mp member with inside | inside
  · obtain ⟨counted, attended, within⟩ := left part inside
    exact ⟨counted, attended, List.Subset.trans within (List.subset_append_left _ _)⟩
  · obtain ⟨counted, attended, within⟩ := right part inside
    exact ⟨counted, attended, List.Subset.trans within (List.subset_append_right _ _)⟩

mutual

theorem parts_sound : {tree : Tree H} → (live : Live H tree) → {start : Nat} →
    Consecutive start tree.labels → live.Attended → ∀ part ∈ live.parts, part.Sound live.handles
  | _, .relay _ kid, _, counted, attended =>
    sound_below counted attended (List.Subset.refl _)
      (parts_sound kid (consecutive_cons.mp counted).2 attended.2)
  | _, .repeater _ _ kid, _, counted, attended =>
    sound_below counted attended (List.subset_append_right _ _)
      (parts_sound kid (consecutive_cons.mp counted).2 attended.2)
  | _, .loop _ _ kid, _, counted, attended =>
    sound_below counted attended (List.subset_append_right _ _)
      (parts_sound kid (consecutive_cons.mp counted).2 attended.2)
  | _, .gate _ _ _ _ kid, _, counted, attended =>
    sound_below counted attended (List.subset_append_right _ _)
      (parts_sound kid (consecutive_cons.mp counted).2 attended.2)
  | _, .ordered _ kids, _, counted, attended =>
    sound_below counted attended (List.Subset.refl _)
      (parts_sound_all kids (consecutive_cons.mp counted).2 attended.2)
  | _, .weighted _ _ kids, _, counted, attended =>
    sound_below counted attended (List.Subset.refl _)
      (parts_sound_all kids (consecutive_cons.mp counted).2 attended.2)
  | _, .parallel _ first second, _, counted, attended => by
    obtain ⟨left, right⟩ := consecutive_append.mp (consecutive_cons.mp counted).2
    exact sound_below counted attended (List.Subset.refl _)
      (sound_append (parts_sound first left attended.2.1) (parts_sound second right attended.2.2))
  | _, .condition _ _, _, counted, attended =>
    sound_below counted attended (List.Subset.refl _) nofun
  | _, .action _ _ _, _, counted, attended =>
    sound_below counted attended (List.Subset.refl _) nofun

theorem parts_sound_all : {trees : Forest H} → (lives : LiveForest H trees) → {start : Nat} →
    Consecutive start trees.labels → lives.Attended →
    ∀ part ∈ lives.parts, part.Sound lives.handles
  | _, .nil, _, _, _ => nofun
  | _, .cons head tail, _, counted, attended => by
    obtain ⟨left, right⟩ := consecutive_append.mp counted
    exact sound_append (parts_sound head left attended.1) (parts_sound_all tail right attended.2)

end

theorem exists_mem_holds {label : Label} {once : Bool} {task : Option Nat} (held : task ≠ none) :
    ∃ handle, handle ∈ label.holds once task := by
  cases task with
  | none => exact absurd rfl held
  | some task => exact ⟨_, List.mem_singleton_self _⟩

mutual

/-- Below every running node a task is held. -/
theorem exists_handle : {tree : Tree H} → (live : Live H tree) → live.Attended →
    live.status = .running → ∃ handle, handle ∈ live.handles
  | _, .relay _ kid, attended, running => exists_handle kid attended.2 (attended.1 running)
  | _, .repeater _ deferred kid, attended, running => by
    rcases attended.1 running with holding | runs
    · obtain ⟨handle, own⟩ := exists_mem_holds holding
      exact ⟨handle, List.mem_append_left _ own⟩
    · obtain ⟨handle, below⟩ := exists_handle kid attended.2 runs
      exact ⟨handle, List.mem_append_right _ below⟩
  | _, .loop _ _ _, attended, running => by
    obtain ⟨handle, own⟩ := exists_mem_holds (attended.1 running)
    exact ⟨handle, List.mem_append_left _ own⟩
  | _, .gate _ _ _ _ kid, attended, running => by
    obtain ⟨handle, below⟩ := exists_handle kid attended.2 (attended.1 running)
    exact ⟨handle, List.mem_append_right _ below⟩
  | _, .ordered _ kids, attended, running => by
    obtain ⟨index, runs⟩ := attended.1 running
    exact exists_handle_below kids attended.2 index runs
  | _, .weighted _ _ kids, attended, running => by
    obtain ⟨index, _, runs⟩ := attended.1 running
    exact exists_handle_below kids attended.2 index runs
  | _, .parallel _ first _, attended, running => by
    obtain ⟨handle, below⟩ := exists_handle first attended.2.1 (attended.1 running)
    exact ⟨handle, List.mem_append_left _ below⟩
  | _, .condition _ _, attended, running => absurd running attended
  | _, .action _ _ _, attended, running => exists_mem_holds (attended running)

theorem exists_handle_below : {trees : Forest H} → (lives : LiveForest H trees) →
    lives.Attended → (index : Nat) → lives.status? index = some .running →
    ∃ handle, handle ∈ lives.handles
  | _, .cons head _, attended, 0, runs => by
    obtain ⟨handle, here⟩ := exists_handle head attended.1 (Option.some.inj runs)
    exact ⟨handle, List.mem_append_left _ here⟩
  | _, .cons _ tail, attended, index + 1, runs => by
    obtain ⟨handle, later⟩ := exists_handle_below tail attended.2 index runs
    exact ⟨handle, List.mem_append_right _ later⟩

end

namespace Session

variable {tree : Tree H} {session : Session H tree}

theorem wake_attended (weighed : tree.Weighed) (due : Wake) (attended : session.live.Attended) :
    (session.wake due).1.live.Attended := by
  unfold wake
  split
  · exact resume_attended due tree weighed session.live session.cx attended
  · exact attended

theorem perform_attended (weighed : tree.Weighed) (command : Command H)
    (attended : session.live.Attended) : (session.perform command).live.Attended := by
  cases command with
  | evaluate => exact evaluate_attended tree weighed session.live session.cx attended
  | tick delta =>
    exact dispatch_keeps (fun session => session.live.Attended)
      (fun due _ => wake_attended weighed due) _ _ attended
  | stop => exact stop_attended tree session.live session.cx
  | change edit => exact attended

theorem run_attended (weighed : tree.Weighed) (commands : List (Command H))
    (attended : session.live.Attended) : (session.run commands).live.Attended := by
  induction commands generalizing session with
  | nil => exact attended
  | cons command rest ih => exact ih (perform_attended weighed command attended)

end Session

/-- After every call of a run, each running node has a node in its part of the tree that holds a
task of the agenda addressed to it. -/
theorem running_node_has_task {sources : Build.Sources H} {graph : Graph} {built : Built H}
    (ok : build sources graph = .ok built) (scene : Scene H.Target) (sampler : H.Sampler)
    (commands : List (Command H)) :
    let session := (Session.start built.tree scene sampler).run commands
    (∀ part ∈ session.live.parts, part.live.isRunning →
      ∃ task ∈ session.cx.agenda.tasks, part.tree.covers task.node ∧
        task.handle ∈ part.live.handles) ∧
    (session.isRunning → 0 < session.cx.agenda.pending) := by
  intro session
  have counted := (build_consecutive ok).1
  have attended : session.live.Attended :=
    Session.run_attended (built_weighed ok) commands (initial_attended built.tree)
  have posted : ∀ handle ∈ session.live.handles,
      ∃ task ∈ session.cx.agenda.tasks, task.handle = handle := by
    intro handle held
    have tasks := (built_accounted ok scene sampler commands).tasks_perm
    exact List.mem_map.mp (tasks.mem_iff.mpr (List.mem_append_left _ held))
  constructor
  · intro part member running
    -- a task that is held below the node is held in the tree, so it is in the agenda
    obtain ⟨⟨start, numbered⟩, upheld, within⟩ := parts_sound session.live counted attended part member
    obtain ⟨handle, held⟩ := exists_handle part.live upheld (of_decide_eq_true running)
    obtain ⟨task, there, rfl⟩ := posted handle (within held)
    exact ⟨task, there, (covers_iff_mem numbered).mpr (handles_node part.live _ held), held⟩
  · intro running
    obtain ⟨handle, held⟩ := exists_handle session.live attended (of_decide_eq_true running)
    obtain ⟨task, there, _⟩ := posted handle held
    exact List.length_pos_of_mem there

theorem restless_has_task : ∃ built, build rehearsed Rehearsal.restless = .ok built ∧
    (built.fresh.run [.evaluate, .tick 0]).isRunning ∧
      0 < (built.fresh.run [.evaluate, .tick 0]).cx.agenda.pending := by
  obtain ⟨built, ok⟩ := restless_builds
  have running : ((build rehearsed Rehearsal.restless).toOption.map fun built =>
      (built.fresh.run [.evaluate, .tick 0]).isRunning) = some true := by decide +kernel
  rw [ok] at running
  have running := Option.some.inj running
  exact ⟨built, ok, running, (running_node_has_task ok ⟨⟨[]⟩, built.blackboard⟩ (Sampler.ofSeed 0)
    [.evaluate, .tick 0]).2 running⟩

end ReactiveTree
