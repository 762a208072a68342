import Mathlib.Data.List.Find
import Mathlib.Data.List.Nodup
import ReactiveTree.Proofs.Recursion
import ReactiveTree.Proofs.Soundness

/-!
What a build looks at. Of a graph it reads the variables, the root descriptor and the descriptors
that links lead to from there, so graphs that agree in these are built alike, into the same tree or
to the same error. Descriptors behind those of a graph that is built change nothing, and neither
does their order where each is found under one id and one of them is a root.
-/

namespace ReactiveTree

def Descriptor.isRoot (node : Descriptor) : Bool := NodeKind.parse? node.kind = some .root

namespace Build

variable {H : Host} {sources : Sources H} {graph graph' : Graph}

/-- The second graph has all that can be reached in the first one. -/
structure Matches (graph graph' : Graph) : Prop where
  declarations : graph'.declarations = graph.declarations
  rooted : graph'.root? = graph.root?
  /-- Without a root it still matters whether there are descriptors at all. -/
  filled : graph.root? = none → graph'.isEmpty = graph.isEmpty
  found : ∀ id, Reached graph id → graph'.find? id = graph.find? id

namespace Matches

theorem isEmpty (same : Matches graph graph') : graph'.isEmpty = graph.isEmpty := by
  cases rooted : graph.root? with
  | none => exact same.filled rooted
  | some root => rw [isEmpty_of_root rooted, isEmpty_of_root (same.rooted.trans rooted)]

theorem buildNode (same : Matches graph graph') {depth : Nat} {opened : List String}
    {scope : String} {node : Descriptor} {progress : Progress} (reached : Reached graph node.id)
    (found : graph.find? node.id = some node) :
    Build.buildNode sources depth graph' opened scope node progress =
      Build.buildNode sources depth graph opened scope node progress := by
  induction depth generalizing node progress with
  | zero => rfl
  | succ depth ih =>
    have below {id : String} (listed : id ∈ node.children) : Reached graph id :=
      .child reached found listed
    have children (entered : Progress) :
        buildEach (Build.buildNode sources depth graph' opened scope) graph' (keyIn scope node.id)
            node.children entered =
          buildEach (Build.buildNode sources depth graph opened scope) graph (keyIn scope node.id)
            node.children entered := by
      apply buildEach_congr
      · intro id listed
        exact same.found id (below listed)
      · intro before id after child trees middle listed found' _
        obtain rfl := id_of_find found'
        have member : child.id ∈ node.children := by
          rw [listed]
          exact List.mem_append_right _ List.mem_cons_self
        exact ih (below member) found'
    -- the body of a function node is the same graph on both sides
    simp only [Build.buildNode, children]

theorem buildBody (same : Matches graph graph') (depth : Nat) (progress : Progress) :
    Build.buildBody (Build.buildNode sources depth graph' [] "") graph' "" progress =
      Build.buildBody (Build.buildNode sources depth graph [] "") graph "" progress := by
  rw [Build.buildBody, Build.buildBody, same.isEmpty, same.rooted, same.declarations]
  apply check_bind_congr
  intro _
  apply require_bind_congr
  intro root rooted
  apply bind_congr_ok
  intro board _
  dsimp only
  split
  · rename_i id single
    have reached : Reached graph id := .root rooted (single ▸ List.mem_singleton_self id)
    rw [same.found id reached]
    apply require_bind_congr
    intro child found
    obtain rfl := id_of_find found
    rw [same.buildNode reached found]
  · rfl

theorem walk (same : Matches graph graph') :
    Build.walk sources graph' = Build.walk sources graph := by
  -- each graph has its own number of levels, and more of them change nothing
  let depth := max (levels sources.library graph) (levels sources.library graph')
  calc Build.walk sources graph'
    _ = Build.buildBody (Build.buildNode sources depth graph' [] "") graph' "" ⟨1, {}, []⟩ :=
      (walk_eq sources graph').trans (buildBody_eq_expand sources (Nat.le_max_right _ _)).symm
    _ = Build.buildBody (Build.buildNode sources depth graph [] "") graph "" ⟨1, {}, []⟩ :=
      same.buildBody depth _
    _ = Build.walk sources graph :=
      (buildBody_eq_expand sources (Nat.le_max_left _ _)).trans (walk_eq sources graph).symm

theorem build (same : Matches graph graph') :
    ReactiveTree.build sources graph' = ReactiveTree.build sources graph := by
  unfold ReactiveTree.build
  rw [same.rooted, same.isEmpty]
  cases graph.root? with
  | none => rfl
  | some root =>
    have walked : Build.walk sources graph' = Build.walk sources graph := same.walk
    dsimp only
    -- both sides branch on the result of the one walk
    split <;> split <;> simp_all

end Matches

/-- What stands behind the descriptors of a graph that is built is not read. -/
theorem matches_append {built : Built H} (ok : ReactiveTree.build sources graph = .ok built)
    (added : List Descriptor) : Matches graph { graph with nodes := graph.nodes ++ added } := by
  have wellFormed := (wellFormed_of_build ok).bodies ⟨graph, []⟩ .refl
  have behind {picks : Descriptor → Bool} {node : Descriptor}
      (found : graph.nodes.find? picks = some node) :
      (graph.nodes ++ added).find? picks = graph.nodes.find? picks := by
    rw [List.find?_append, found, Option.some_or]
  obtain ⟨root, _, rooted, _⟩ := wellFormed.rooted
  constructor
  · rfl
  · exact behind rooted
  · intro rootless
    exact nomatch rooted.symm.trans rootless
  · intro id reached
    obtain ⟨node, found⟩ := wellFormed.resolves id reached
    exact behind found

theorem matches_perm {root : Descriptor} {nodes : List Descriptor}
    (distinct : (graph.nodes.map Descriptor.id).Nodup)
    (single : graph.nodes.filter Descriptor.isRoot = [root]) (reordered : nodes.Perm graph.nodes) :
    Matches graph { graph with nodes } := by
  have unique {picks : Descriptor → Bool}
      (one : ∀ node ∈ graph.nodes, ∀ node' ∈ graph.nodes, picks node → picks node' → node = node') :
      nodes.find? picks = graph.nodes.find? picks := by
    apply Eq.symm
    apply List.find?_eq_find?_of_perm reordered.symm
    rintro node ⟨member, picked⟩ node' ⟨member', picked'⟩
    exact one node member node' member' picked picked'
  have root_eq : ∀ node ∈ graph.nodes, Descriptor.isRoot node → node = root := by
    intro node member isRoot
    have filtered : node ∈ graph.nodes.filter Descriptor.isRoot :=
      List.mem_filter.mpr ⟨member, isRoot⟩
    rw [single] at filtered
    exact List.mem_singleton.mp filtered
  constructor
  · rfl
  · apply unique
    intro node member node' member' picked picked'
    exact (root_eq node member picked).trans (root_eq node' member' picked').symm
  · intro rootless
    have member : root ∈ graph.nodes.filter Descriptor.isRoot :=
      single ▸ List.mem_singleton_self root
    obtain ⟨listed, isRoot⟩ := List.mem_filter.mp member
    exact absurd isRoot (List.find?_eq_none.mp rootless root listed)
  · intro id _
    apply unique
    intro node member node' member' picked picked'
    have same : node.id = node'.id :=
      (of_decide_eq_true picked).trans (of_decide_eq_true picked').symm
    exact List.inj_on_of_nodup_map distinct member member' same

end Build

open Build

variable {H : Host}

/-- Only what links lead to from the root counts. -/
theorem only_reached_counts (sources : Sources H) (graph : Graph) :
    (∀ graph', Matches graph graph' → build sources graph' = build sources graph) ∧
    (∀ built added, build sources graph = .ok built →
      build sources { graph with nodes := graph.nodes ++ added } = .ok built) ∧
    (∀ root nodes, (graph.nodes.map Descriptor.id).Nodup →
      graph.nodes.filter Descriptor.isRoot = [root] → nodes.Perm graph.nodes →
      build sources { graph with nodes } = build sources graph) := by
  refine ⟨fun graph' same => same.build, ?_, ?_⟩
  · intro built added ok
    exact (matches_append ok added).build.trans ok
  · intro root nodes distinct single reordered
    exact (matches_perm distinct single reordered).build

namespace Rehearsal

def lamp : Graph where
  nodes := [
    { kind := "Root", id := "root", children := ["lit"], params := {} },
    { kind := "ConditionNode", id := "lit", params := {
        unit := some "Script", inputs := [.literal "lit", .literal "t"] } }]

/-- A second root, a second descriptor of an id, and one of a kind that does not exist. -/
def attic : List Descriptor := [
  { kind := "Root", id := "roof", children := ["box", "lit"], params := {} },
  { kind := "ActionNode", id := "lit", children := ["roof"], params := {} },
  { kind := "Box", id := "box", params := {} }]

theorem lamp_is_all_that_counts : ∃ built, build rehearsed lamp = .ok built ∧
    build rehearsed { lamp with nodes := lamp.nodes ++ attic } = .ok built ∧
    build rehearsed { lamp with nodes := lamp.nodes.reverse } = .ok built := by
  obtain ⟨built, made⟩ : ∃ built, build rehearsed lamp = .ok built :=
    exists_built (by decide +kernel)
  obtain ⟨_, appended, reordered⟩ := only_reached_counts rehearsed lamp
  have turned := reordered _ lamp.nodes.reverse (by decide) rfl lamp.nodes.reverse_perm
  exact ⟨built, made, appended built attic made, turned.trans made⟩

end Rehearsal

end ReactiveTree
