import Mathlib.Data.List.Pairwise
import ReactiveTree.Proofs.Repose
import ReactiveTree.Proofs.Tracking

/-!
A wake is handed down along the path of its id. The nodes on the path are those that cover the id,
and they are resumed before the tree does anything else. No other node is resumed, though some may
be activated or stopped in the same call.
-/

namespace ReactiveTree

variable {H : Host}

theorem mem_path_iff {id : Nat} {node : Tree H} (tree : Tree H) {start : Nat}
    (counted : Consecutive start tree.labels) (inside : id ∈ tree.labels.map Label.id) :
    node ∈ tree.path id ↔ node ∈ tree.nodes ∧ id ∈ node.labels.map Label.id := by
  induction tree using Tree.descend generalizing start with | step tree ih
  have covers : ∀ child ∈ tree.children, node ∈ child.nodes → id ∈ node.labels.map Label.id →
      child.covers id := by
    intro child listed below here
    obtain ⟨first, numbered⟩ := child_consecutive counted child listed
    exact (covers_iff_mem numbered).mpr (ids_subset below here)
  rw [nodes_children, List.mem_cons, List.mem_flatMap]
  by_cases own : id = tree.id
  · obtain rfl := own
    rw [path_own counted, List.mem_singleton]
    constructor
    · rintro rfl
      exact ⟨.inl rfl, id_mem_labels node⟩
    · rintro ⟨same | ⟨child, listed, below⟩, here⟩
      · exact same
      · -- no child covers the id of its parent
        obtain ⟨first, numbered⟩ := child_consecutive counted child listed
        have covered := covers child listed below here
        rw [labels_children] at counted
        refine absurd ?_ counted.fresh
        rw [List.map_flatMap]
        exact List.mem_flatMap.mpr ⟨child, listed, (covers_iff_mem numbered).mp covered⟩
  · obtain ⟨child, listed, covered, down⟩ := path_step counted inside own
    obtain ⟨first, numbered⟩ := child_consecutive counted child listed
    have only : ∀ other ∈ tree.children, other.covers id → other = child := by
      intro other there also
      rw [labels_children] at counted
      by_contra apart
      have : Std.Symm fun first second : Tree H =>
          ∀ id, ¬ (first.covers id = true ∧ second.covers id = true) :=
        ⟨fun _ _ never id both => never id both.symm⟩
      exact (pairwise_not_covers (consecutive_cons.mp counted).2).forall there listed apart id
        ⟨also, covered⟩
    rw [down, List.mem_cons, ih child listed numbered ((covers_iff_mem numbered).mp covered)]
    constructor
    · rintro (rfl | ⟨below, here⟩)
      · exact ⟨.inl rfl, inside⟩
      · exact ⟨.inr ⟨child, listed, below⟩, here⟩
    · rintro ⟨same | ⟨other, there, below⟩, here⟩
      · exact .inl same
      · obtain rfl := only other there (covers other there below here)
        exact .inr ⟨below, here⟩

def Visit.Resumes {tree : Tree H} (visit : Visit H tree) : Prop :=
  ∃ wake, visit.summons = .resume wake

section Arriving

variable {tree node : Tree H} {start : Nat} {live : Live H node} {cx : Context H} {due : Wake}

/-- What has become of a node in the call that delivers a wake: it was resumed at once or not at
all, and then activated and stopped any number of times. -/
def Heeds (before : List (Visit H node)) (woken : List (Visit H node)) (part : Part H)
    (cx : Context H) : Prop :=
  ∃ after later, part = ⟨node, after⟩ ∧ Life (before ++ woken ++ later) after cx ∧
    ∀ visit ∈ later, ¬ visit.Resumes

theorem heeds_follows (before woken : List (Visit H node)) :
    Follows node.id [node.id] (Heeds before woken) where
  quiet := by
    rintro part cx cx' ⟨after, later, rfl, life, others⟩ same grows
    exact ⟨after, later, rfl,
      .aside life (Context.about_of_amid (List.mem_singleton_self _) same) grows.nextId, others⟩
  activate := by
    rintro tree live cx _ _ ⟨after, later, same, life, others⟩
    cases same
    have life := life.visit .evaluate
    rw [List.append_assoc] at life
    exact ⟨_, _, rfl, life,
      List.forall_mem_append.mpr ⟨others, List.forall_mem_singleton.mpr nofun⟩⟩
  halt := by
    rintro tree live cx _ _ ⟨after, later, same, life, others⟩
    cases same
    have life := life.visit .stop
    rw [List.append_assoc] at life
    exact ⟨_, _, rfl, life,
      List.forall_mem_append.mpr ⟨others, List.forall_mem_singleton.mpr nofun⟩⟩

theorem heeds_delivers (due : Wake) (before : List (Visit H node)) (life : Life before live cx) :
    ∃ woken, Delivers node.id due (fun part cx' => part = ⟨node, live⟩ ∧ cx' = cx)
        (Heeds before woken) ∧
      (due.node ∈ node.labels.map Label.id → woken = [⟨.resume due, live, cx⟩]) ∧
      (due.node ∉ node.labels.map Label.id → woken = []) := by
  by_cases passed : due.node ∈ node.labels.map Label.id
  · refine ⟨[⟨.resume due, live, cx⟩], ⟨?_, ?_⟩, fun _ => rfl, absurd passed⟩
    · rintro tree live cx _ _ ⟨same, rfl⟩
      cases same
      refine ⟨_, [], rfl, ?_, List.forall_mem_nil _⟩
      rw [List.append_nil]
      exact life.visit (.resume due)
    · rintro part cx ⟨rfl, _⟩ _ outside
      exact absurd passed outside
  · have unmoved : Heeds before [] ⟨node, live⟩ cx := by
      refine ⟨live, [], rfl, ?_, List.forall_mem_nil _⟩
      rwa [List.append_nil, List.append_nil]
    have stale : due.Stale live.handles := fun handle held aimed =>
      passed (aimed.1 ▸ handles_node live handle held)
    refine ⟨[], ⟨?_, ?_⟩, fun inside => absurd inside passed, fun _ => rfl⟩
    · rintro tree live cx _ _ ⟨same, rfl⟩
      cases same
      rwa [resume_stale due node live cx stale]
    · rintro part cx ⟨rfl, rfl⟩ _ _
      exact unmoved

/-- Each node on the path is resumed in the state and the context that the wake finds, and no other
node is resumed. -/
theorem Session.wake_resumes {session : Session H tree} (counted : Consecutive start tree.labels)
    (known : due.node ∈ tree.labels.map Label.id) (member : ⟨node, live⟩ ∈ session.live.parts)
    {before : List (Visit H node)} (life : Life before live session.cx) :
    ∃ after woken later, ⟨node, after⟩ ∈ (session.wake due).1.live.parts ∧
      Life (before ++ woken ++ later) after (session.wake due).1.cx ∧
      (node ∈ tree.path due.node → woken = [⟨.resume due, live, session.cx⟩]) ∧
      (node ∉ tree.path due.node → woken = []) ∧ ∀ visit ∈ later, ¬ visit.Resumes := by
  have there : node ∈ tree.nodes := by
    rw [← parts_trees session.live]
    exact List.mem_map_of_mem member
  have on : node ∈ tree.path due.node ↔ due.node ∈ node.labels.map Label.id :=
    (mem_path_iff tree counted known).trans (and_iff_right there)
  obtain ⟨woken, delivers, passed, outside⟩ := heeds_delivers due before life
  have numbered := counted.numbered
  have tracks : session.Tracks node.id fun part cx => part = ⟨node, live⟩ ∧ cx = session.cx :=
    ⟨_, filter_parts_eq_singleton numbered.distinct member, rfl, rfl⟩
  obtain ⟨part, only, after, later, rfl, life, others⟩ :=
    wake_tracks numbered (clears_singleton _ tree) (heeds_follows _ _) delivers tracks
  exact ⟨after, woken, later, (List.mem_filter.mp (only ▸ List.mem_singleton_self _)).1, life,
    fun down => passed (on.mp down), fun aside => outside (mt on.mpr aside), others⟩

end Arriving

/-- The nodes of a built tree are numbered in order, each covers the ids of the nodes below it and
its own, and the path of a wake for any of them goes from child to child that covers the id and ends
at the node that it is addressed to. Delivering the wake resumes the nodes on the path, each as the
call found it, and no other node. In a run every node has calls `before` (`Session.run_lives`). -/
theorem wakes_reach_their_node {sources : Build.Sources H} {graph : Graph} {built : Built H}
    (ok : build sources graph = .ok built) :
    built.tree.nodes.map Tree.id = List.range built.nodes ∧
    (∀ node ∈ built.tree.nodes, ∀ id, node.covers id ↔ id ∈ node.nodes.map Tree.id) ∧
    (∀ node ∈ built.tree.nodes,
      node.children.Pairwise fun first second => ∀ id, ¬ (first.covers id ∧ second.covers id)) ∧
    built.tree.span = built.nodes ∧
    (∀ node ∈ built.tree.nodes, ∀ id ∈ node.nodes.map Tree.id, id ≠ node.id →
      ∃ child ∈ node.children, child.covers id ∧ node.path id = node :: child.path id) ∧
    (∀ id < built.nodes, ∃ above node, built.tree.path id = above ++ [node] ∧ node.id = id ∧
      (∀ other ∈ above, other.id ≠ id) ∧ node ∈ built.tree.nodes ∧
      ∀ other ∈ built.tree.nodes, other.id = id → other = node) ∧
    ∀ (session : Session H built.tree) (due : Wake), due.node < built.nodes →
      ∀ {node : Tree H} {live : Live H node}, ⟨node, live⟩ ∈ session.live.parts →
      ∀ before : List (Visit H node), Life before live session.cx →
        ∃ after woken later, ⟨node, after⟩ ∈ (session.wake due).1.live.parts ∧
          Life (before ++ woken ++ later) after (session.wake due).1.cx ∧
          (node ∈ built.tree.path due.node → woken = [⟨.resume due, live, session.cx⟩]) ∧
          (node ∉ built.tree.path due.node → woken = []) ∧ ∀ visit ∈ later, ¬ visit.Resumes := by
  obtain ⟨counted, size⟩ := build_consecutive ok
  have ids : built.tree.nodes.map Tree.id = List.range built.nodes := by
    rw [nodes_ids, counted, size, List.range_eq_range']
  have known : ∀ id < built.nodes, id ∈ built.tree.labels.map Label.id := by
    intro id small
    rw [← nodes_ids, ids]
    exact List.mem_range.mpr small
  have numbered := nodes_consecutive built.tree counted
  refine ⟨ids, ?_, ?_, ?_, ?_, ?_, ?_⟩
  · intro node member id
    obtain ⟨first, from_⟩ := numbered node member
    rw [covers_iff_mem from_, nodes_ids]
  · intro node member
    obtain ⟨first, from_⟩ := numbered node member
    rw [labels_children] at from_
    exact pairwise_not_covers (consecutive_cons.mp from_).2
  · rw [Tree.span, limit_of_consecutive _ _ counted, Tree.id_of_consecutive counted, size]
    exact Nat.zero_add _
  · intro node member id inside other
    obtain ⟨first, from_⟩ := numbered node member
    rw [nodes_ids] at inside
    exact path_step from_ inside other
  · intro id small
    obtain ⟨above, node, passed, own, apart⟩ := path_reaches built.tree counted (known id small)
    have there : node ∈ built.tree.nodes := by
      refine ((mem_path_iff built.tree counted (known id small)).mp ?_).1
      rw [passed]
      exact List.mem_append_right _ (List.mem_singleton_self node)
    refine ⟨above, node, passed, own, apart, there, ?_⟩
    -- no number is given out twice
    have distinct : (built.tree.nodes.map Tree.id).Nodup := ids ▸ List.nodup_range
    intro other elsewhere same
    exact List.inj_on_of_nodup_map distinct elsewhere there (same.trans own.symm)
  · intro session due small node live member before life
    exact session.wake_resumes counted (known due.node small) member life

theorem errand_wake_reaches_walk : ∃ built, build rehearsed Rehearsal.errand = .ok built ∧
    4 < built.nodes ∧ ∃ above node, built.tree.path 4 = above ++ [node] ∧ node.id = 4 ∧
      ∀ other ∈ built.tree.nodes, other.id = 4 → other = node := by
  obtain ⟨built, ok, size⟩ := errand_builds
  have small : 4 < built.nodes := by
    rw [size]
    decide
  obtain ⟨_, _, _, _, _, paths, _⟩ := wakes_reach_their_node ok
  obtain ⟨above, node, passed, own, _, _, only⟩ := paths 4 small
  exact ⟨built, ok, small, above, node, passed, own, only⟩

end ReactiveTree
