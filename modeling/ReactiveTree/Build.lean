import ReactiveTree.Build.Depth

/-!
Building a tree. Number `0` and the topmost key belong to the root descriptor; what it refers to is
walked with as many levels as the graph and the library have descriptors, which is always enough.
-/

namespace ReactiveTree

open Build

variable {H : Host}

structure Built (H : Host) where
  tree : Tree H
  blackboard : Blackboard
  nodes : Nat

namespace Build

/-- More levels than there are descriptors to enter. -/
def levels (library : Library) (graph : Graph) : Nat :=
  graph.weight + closedWeight library [] + 1

def walk (sources : Sources H) (graph : Graph) : Walk (Tree H × Progress) :=
  buildBody (buildNode sources (levels sources.library graph) graph [] "") graph ""
    ⟨1, {}, []⟩

theorem walk_settled (sources : Sources H) (graph : Graph) :
    Settled [] (walk sources graph) := by
  apply buildBody_settled
  intro root rootMember node member start entered
  refine buildNode_settled sources _ graph [] "" node start member ?_
  have first : fresh graph.nodes [root.id] < fresh graph.nodes [] :=
    fresh_lt rootMember (by simp)
  have all := fresh_le_length graph.nodes []
  rw [room, levels, weight_eq, entered]
  omega

theorem walk_ne_tooDeep (sources : Sources H) (graph : Graph) :
    walk sources graph ≠ .error .tooDeep := by
  intro deep
  have settled := walk_settled sources graph
  rw [deep] at settled
  exact settled

end Build

def build (sources : Sources H) (graph : Graph) : Except BuildError (Built H) :=
  match graph.root? with
  | none => .error (if graph.isEmpty then .emptyGraph else .missingRoot)
  | some root =>
    match reached : walk sources graph with
    | .ok (tree, progress) =>
      .ok ⟨.relay .root ⟨0, root.id⟩ tree, progress.blackboard, progress.next⟩
    | .error (.error error) => .error error
    | .error .tooDeep => (walk_ne_tooDeep sources graph reached).elim

theorem build_eq_ok {sources : Sources H} {graph : Graph} {built : Built H} :
    build sources graph = .ok built ↔ ∃ root tree progress, graph.root? = some root ∧
      walk sources graph = .ok (tree, progress) ∧
      built = ⟨.relay .root ⟨0, root.id⟩ tree, progress.blackboard, progress.next⟩ := by
  unfold build
  split
  · rename_i rootless
    simp [rootless]
  · rename_i root rooted
    split
    · rename_i tree progress reached
      constructor
      · intro made
        exact ⟨root, tree, progress, rooted, reached, (Except.ok.inj made).symm⟩
      · rintro ⟨_, _, _, rooted', reached', rfl⟩
        cases rooted.symm.trans rooted'
        cases reached.symm.trans reached'
        rfl
    · rename_i reached
      simp [reached]
    · rename_i reached
      exact (walk_ne_tooDeep sources graph reached).elim

end ReactiveTree
