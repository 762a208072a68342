import ReactiveTree.Proofs.Gatekeeping
import ReactiveTree.Proofs.Tracking

/-!
The tasks that the agenda keeps for one node. Only repeaters overwrite tasks, and only those below
which some node holds a task, so for any other node the agenda keeps just the task that the node
holds, and not even that one while its wake is on the way.
-/

namespace ReactiveTree

variable {H : Host}

def Agenda.tasksFor (agenda : Agenda) (node : Nat) : List Task :=
  agenda.tasks.filter (·.node = node)

def Tree.repeats : Tree H → Bool
  | .repeater _ _ => true
  | _ => false

/-- A repeater below which a task is held. A wake may end its child while the next activation of the
child is put off. -/
def Part.Busy (part : Part H) : Prop :=
  part.tree.repeats ∧ ∃ kid ∈ part.live.children, kid.live.handles ≠ []

def Handle.OfBusy (parts : List (Part H)) (handle : Handle) : Prop :=
  ∃ part ∈ parts, part.Busy ∧ part.tree.id = handle.node

/-- The node of the handle is busy in a state of the tree that calls lead to. -/
def Handle.Forgotten (tree : Tree H) (handle : Handle) : Prop :=
  ∃ live : Live H tree, live.Reachable ∧ handle.OfBusy live.parts

section Overwritten

variable {parts more : List (Part H)} {handle : Handle}

theorem ofBusy_mono (sub : parts ⊆ more) (owned : handle.OfBusy parts) : handle.OfBusy more := by
  obtain ⟨part, member, busy⟩ := owned
  exact ⟨part, sub member, busy⟩

theorem overwritten_node {label : Label} {deferred : Option Nat} {report : Report}
    (member : handle ∈ overwritten label deferred report) : handle.node = label.id := by
  unfold overwritten at member
  split at member
  · exact holds_node member
  · cases member

mutual

theorem orphaned_ofBusy (wake : Wake) : (tree : Tree H) → (live : Live H tree) →
    (cx : Context H) → ∀ handle ∈ orphaned wake tree live cx, handle.OfBusy live.parts
  | .relay _ _ child, .relay _ kid, cx | .loop _ _ child, .loop _ _ kid, cx
  | .gate _ _ _ _ child, .gate _ _ _ _ kid, cx => by
    intro handle member
    rw [orphaned] at member
    split at member
    · exact ofBusy_mono (List.subset_cons_self _ _)
        (orphaned_ofBusy wake child kid cx handle member)
    · cases member
  | .repeater label child, .repeater _ deferred kid, cx => by
    intro handle member
    rw [orphaned] at member
    split at member
    · rcases List.mem_append.mp member with own | below
      · split at own
        · rename_i ended
          -- a child that holds nothing does not hear the wake
          have busy : kid.handles ≠ [] := by
            intro unheld
            rw [resume_unheld wake child kid cx unheld] at ended
            cases ended
          exact ⟨_, List.mem_cons_self, ⟨rfl, _, List.mem_cons_self, busy⟩,
            (overwritten_node own).symm⟩
        · cases own
      · exact ofBusy_mono (List.subset_cons_self _ _)
          (orphaned_ofBusy wake child kid cx handle below)
    · cases member
  | .ordered _ _ children, .ordered _ kids, cx
  | .weighted _ _ children, .weighted _ _ kids, cx => fun handle member =>
    ofBusy_mono (List.subset_cons_self _ _)
      (orphanedBelow_ofBusy wake children kids cx handle member)
  | .parallel _ main background, .parallel _ first second, cx => by
    intro handle member
    rw [orphaned] at member
    refine ofBusy_mono (List.subset_cons_self _ _) ?_
    split at member
    · exact ofBusy_mono (List.subset_append_left _ _)
        (orphaned_ofBusy wake main first cx handle member)
    · split at member
      · exact ofBusy_mono (List.subset_append_right _ _)
          (orphaned_ofBusy wake background second cx handle member)
      · cases member
  | .condition _ _, .condition _ _, _ | .action _ _, .action _ _ _, _ => nofun

theorem orphanedBelow_ofBusy (wake : Wake) : (trees : Forest H) →
    (lives : LiveForest H trees) → (cx : Context H) →
    ∀ handle ∈ orphanedBelow wake trees lives cx, handle.OfBusy lives.parts
  | .nil, .nil, _ => nofun
  | .cons tree trees, .cons head tail, cx => by
    intro handle member
    rw [orphanedBelow] at member
    split at member
    · exact ofBusy_mono (List.subset_append_left _ _)
        (orphaned_ofBusy wake tree head cx handle member)
    · exact ofBusy_mono (List.subset_append_right _ _)
        (orphanedBelow_ofBusy wake trees tail cx handle member)

end

section Forgetting

variable {tree node : Tree H} (distinct : (tree.labels.map Label.id).Nodup)
  (member : node ∈ tree.nodes) (forgotten : handle.Forgotten tree)

include distinct member forgotten

/-- Ids are distinct, so the repeater that forgot the handle is the node with the id. -/
theorem forgotten_busy (own : handle.node = node.id) :
    ∃ live : Live H node, live.Reachable ∧ (⟨node, live⟩ : Part H).Busy := by
  obtain ⟨whole, reached, ⟨other, live⟩, here, busy, named⟩ := forgotten
  have inside : other ∈ tree.nodes := by
    rw [← parts_trees whole]
    exact List.mem_map_of_mem here
  rw [← nodes_ids] at distinct
  obtain rfl : other = node :=
    List.inj_on_of_nodup_map distinct inside member (named.trans own)
  have upheld := forall_parts (fun part => part.live.Reachable) (fun _ => Live.Reachable.children) _
    reached
  exact ⟨live, upheld _ here, busy⟩

theorem forgotten_apart (other : node.repeats = false) : handle.node ≠ node.id := by
  intro own
  obtain ⟨live, _, repeats, _⟩ := forgotten_busy distinct member forgotten own
  exact nomatch other.symm.trans repeats

end Forgetting

namespace Session

variable {tree : Tree H} {session : Session H tree} (reached : session.live.Reachable)

include reached

theorem dispatchOrphans_forgotten (due : List Wake) :
    ∀ handle ∈ session.dispatchOrphans due, handle.Forgotten tree := by
  induction due generalizing session with
  | nil => nofun
  | cons first rest ih =>
    intro handle member
    rw [dispatchOrphans] at member
    rcases List.mem_append.mp member with later | now
    · exact ih (wake_reachable first reached) handle later
    · split at now
      · exact ⟨_, reached, orphaned_ofBusy first tree session.live session.cx handle now⟩
      · cases now

theorem orphans_forgotten (commands : List (Command H)) :
    ∀ handle ∈ session.orphans commands, handle.Forgotten tree := by
  induction commands generalizing session with
  | nil => nofun
  | cons command rest ih =>
    intro handle member
    rw [orphans] at member
    rcases List.mem_append.mp member with later | now
    · exact ih (perform_reachable command reached) handle later
    · cases command with
      | tick delta =>
        have advanced : (session.advance delta).2.live.Reachable := reached
        exact dispatchOrphans_forgotten advanced _ handle now
      | evaluate | stop | change => cases now

end Session

end Overwritten

section Kept

variable {tree : Tree H} {session : Session H tree} {due : List Wake} {lost : List Handle}

theorem handles_of_part (distinct : (tree.labels.map Label.id).Nodup) {live : Live H tree}
    {part : Part H} (member : part ∈ live.parts) :
    live.handles.filter (·.node = part.tree.id) = part.holds := by
  have own (other : Part H) : other.holds.filter (·.node = part.tree.id) =
      if other.tree.id = part.tree.id then other.holds else [] := by
    split
    · rename_i same
      apply List.filter_eq_self.mpr
      intro handle held
      exact decide_eq_true ((holds_node held).trans same)
    · rename_i apart
      apply List.filter_eq_nil_iff.mpr
      intro handle held
      have named : handle.node = other.tree.id := holds_node held
      simpa [named] using apart
  have alone := filter_parts_eq_singleton distinct member
  calc live.handles.filter (·.node = part.tree.id)
    _ = live.parts.flatMap fun other =>
        if other.tree.id = part.tree.id then other.holds else [] := by
      rw [handles_eq, List.filter_flatMap]
      exact List.flatMap_congr fun other _ => own other
    _ = (live.parts.filter (·.tree.id = part.tree.id)).flatMap Part.holds := by
      induction live.parts with
      | nil => rfl
      | cons other rest ih =>
        rw [List.flatMap_cons, ih, List.filter_cons]
        by_cases same : other.tree.id = part.tree.id <;> simp [same]
    _ = part.holds := by rw [alone, List.flatMap_singleton]

/-- The tasks of a node that lost none are its handles whose wake is not on the way. -/
theorem Session.Accounted.tasksFor (accounted : session.Accounted due lost)
    (distinct : (tree.labels.map Label.id).Nodup) {part : Part H}
    (member : part ∈ session.live.parts)
    (kept : ∀ handle ∈ lost, handle.node ≠ part.tree.id) :
    ((session.cx.agenda.tasksFor part.tree.id).map Task.handle).Perm
      (part.holds.filter (Handle.waits due)) := by
  have posted := accounted.posted.filter (·.node = part.tree.id)
  have none_lost : lost.filter (·.node = part.tree.id) = [] := by
    apply List.filter_eq_nil_iff.mpr
    simpa using kept
  rw [List.filter_append, none_lost, List.append_nil, List.filter_comm,
    handles_of_part distinct member, List.filter_map] at posted
  exact posted

theorem Session.Accounted.task_pending (accounted : session.Accounted [] lost)
    (distinct : (tree.labels.map Label.id).Nodup) {part : Part H}
    (member : part ∈ session.live.parts) (kept : ∀ handle ∈ lost, handle.node ≠ part.tree.id)
    (waits : part.live.task? ≠ none) :
    ∃ task, session.cx.agenda.tasksFor part.tree.id = [task] ∧
      part.live.task? = some task.id ∧ task.node = part.tree.id ∧
        task.trigger.isOnce = part.tree.takesTimers := by
  have pending := accounted.tasksFor distinct member kept
  obtain ⟨id, held⟩ := Option.ne_none_iff_exists'.mp waits
  rw [List.filter_eq_self.mpr fun handle _ => handle.waits_nil, Part.holds, held] at pending
  obtain ⟨task, only, same⟩ := List.map_eq_singleton_iff.mp (List.perm_singleton.mp pending)
  obtain ⟨node, number, once⟩ := Handle.mk.inj same
  exact ⟨task, only, by rw [held, ← number], node, once⟩

namespace Session

/-- The books are balanced, but for what busy repeaters have overwritten. -/
structure Reckoned (session : Session H tree) : Prop where
  reached : session.live.Reachable
  books : ∃ lost, session.Accounted [] lost ∧ ∀ handle ∈ lost, handle.Forgotten tree

theorem start_reckoned (scene : Scene H.Target) (sampler : H.Sampler) :
    (start tree scene sampler).Reckoned :=
  ⟨.fresh, [], start_accounted scene sampler, nofun⟩

theorem run_reckoned (numbered : tree.Numbered) (commands : List (Command H))
    (reckoned : session.Reckoned) : (session.run commands).Reckoned := by
  obtain ⟨reached, lost, accounted, forgotten⟩ := reckoned
  refine ⟨run_reachable commands reached, _, run_accounted numbered commands accounted, ?_⟩
  exact List.forall_mem_append.mpr ⟨orphans_forgotten reached commands, forgotten⟩

theorem Reckoned.task_pending (reckoned : session.Reckoned)
    (distinct : (tree.labels.map Label.id).Nodup) {part : Part H}
    (member : part ∈ session.live.parts)
    (kept : ∀ handle : Handle, handle.Forgotten tree → handle.node ≠ part.tree.id)
    (waits : part.live.task? ≠ none) :
    ∃ task, session.cx.agenda.tasksFor part.tree.id = [task] ∧
      part.live.task? = some task.id ∧ task.node = part.tree.id ∧
        task.trigger.isOnce = part.tree.takesTimers := by
  obtain ⟨_, lost, accounted, forgotten⟩ := reckoned
  exact accounted.task_pending distinct member
    (fun handle there => kept handle (forgotten handle there)) waits

end Session

end Kept

end ReactiveTree
