import Mathlib.Data.List.Nodup
import ReactiveTree.Proofs.Numbering
import ReactiveTree.Resumption

/-!
How a wake finds its node. Below a built tree every node covers its own id and the ids of its
descendants and no other, so of the children of a node at most one covers the id that a wake is
addressed to, and going down by `Tree.covers` ends at the one node that has it.
-/

namespace ReactiveTree

variable {H : Host}

mutual

def Tree.nodes : Tree H → List (Tree H)
  | tree@(.relay _ _ child) | tree@(.repeater _ child) | tree@(.loop _ _ child)
  | tree@(.gate _ _ _ _ child) => tree :: child.nodes
  | tree@(.ordered _ _ children) | tree@(.weighted _ _ children) => tree :: children.nodes
  | tree@(.parallel _ main background) => tree :: (main.nodes ++ background.nodes)
  | tree@(.condition _ _) | tree@(.action _ _) => [tree]

def Forest.nodes : Forest H → List (Tree H)
  | .nil => []
  | .cons tree trees => tree.nodes ++ trees.nodes

end

def Tree.children : Tree H → List (Tree H)
  | .relay _ _ child | .repeater _ child | .loop _ _ child | .gate _ _ _ _ child => [child]
  | .ordered _ _ children | .weighted _ _ children => children.toList
  | .parallel _ main background => [main, background]
  | .condition _ _ | .action _ _ => []

section Induction

variable {motive : Tree H → Prop}

mutual

/-- What every node has from its children, every tree has. -/
theorem Tree.descend (step : ∀ tree, (∀ child ∈ tree.children, motive child) → motive tree) :
    (tree : Tree H) → motive tree
  | .relay _ _ child | .repeater _ child | .loop _ _ child | .gate _ _ _ _ child =>
    step _ (List.forall_mem_singleton.mpr (child.descend step))
  | .ordered _ _ children | .weighted _ _ children => step _ (children.descend step)
  | .parallel _ main background =>
    step _ (List.forall_mem_cons.mpr
      ⟨main.descend step, List.forall_mem_singleton.mpr (background.descend step)⟩)
  | .condition _ _ | .action _ _ => step _ nofun

theorem Forest.descend (step : ∀ tree, (∀ child ∈ tree.children, motive child) → motive tree) :
    (trees : Forest H) → ∀ tree ∈ trees.toList, motive tree
  | .nil => nofun
  | .cons tree trees => List.forall_mem_cons.mpr ⟨tree.descend step, trees.descend step⟩

end

end Induction

mutual

/-- The nodes that a wake for the id is handed to one after the other, as `resume` hands it down. A
node that has a task to be woken for looks first whether the wake is its own. -/
def Tree.path (id : Nat) : Tree H → List (Tree H)
  | tree@(.relay _ _ child) => tree :: if child.covers id then child.path id else []
  | tree@(.repeater label child) | tree@(.loop label _ child) | tree@(.gate label _ _ _ child) =>
    tree :: if id = label.id then [] else if child.covers id then child.path id else []
  | tree@(.ordered _ _ children) | tree@(.weighted _ _ children) => tree :: children.path id
  | tree@(.parallel _ main background) =>
    tree :: if main.covers id then main.path id
      else if background.covers id then background.path id else []
  | tree@(.condition _ _) | tree@(.action _ _) => [tree]

def Forest.path (id : Nat) : Forest H → List (Tree H)
  | .nil => []
  | .cons tree trees => if tree.covers id then tree.path id else trees.path id

end

mutual

theorem nodes_labels : (tree : Tree H) → tree.nodes.map Tree.label = tree.labels
  | .relay _ _ child | .repeater _ child | .loop _ _ child | .gate _ _ _ _ child =>
    congrArg (_ :: ·) (nodes_labels child)
  | .ordered _ _ children | .weighted _ _ children => congrArg (_ :: ·) (nodes_labels_all children)
  | .parallel _ main background => by
    rw [Tree.nodes, List.map_cons, List.map_append, nodes_labels main, nodes_labels background]
    rfl
  | .condition _ _ | .action _ _ => rfl

theorem nodes_labels_all : (trees : Forest H) → trees.nodes.map Tree.label = trees.labels
  | .nil => rfl
  | .cons tree trees => by
    rw [Forest.nodes, List.map_append, nodes_labels tree, nodes_labels_all trees]
    rfl

end

theorem nodes_ids (tree : Tree H) : tree.nodes.map Tree.id = tree.labels.map Label.id := by
  rw [← nodes_labels, List.map_map]
  rfl

theorem labels_toList : (trees : Forest H) → trees.labels = trees.toList.flatMap Tree.labels
  | .nil => rfl
  | .cons tree trees => by rw [Forest.labels, Forest.toList, List.flatMap_cons, labels_toList trees]

theorem labels_children (tree : Tree H) :
    tree.labels = tree.label :: tree.children.flatMap Tree.labels := by
  cases tree <;> simp [Tree.labels, Tree.label, Tree.children, labels_toList]

theorem nodes_toList : (trees : Forest H) → trees.nodes = trees.toList.flatMap Tree.nodes
  | .nil => rfl
  | .cons tree trees => by rw [Forest.nodes, Forest.toList, List.flatMap_cons, nodes_toList trees]

theorem nodes_children (tree : Tree H) : tree.nodes = tree :: tree.children.flatMap Tree.nodes := by
  cases tree <;> simp [Tree.nodes, Tree.children, nodes_toList]

section Spans

mutual

theorem nodes_consecutive : (tree : Tree H) → {start : Nat} → Consecutive start tree.labels →
    ∀ node ∈ tree.nodes, ∃ first, Consecutive first node.labels
  | .relay _ _ child, start, counted | .repeater _ child, start, counted
  | .loop _ _ child, start, counted | .gate _ _ _ _ child, start, counted =>
    List.forall_mem_cons.mpr
      ⟨⟨start, counted⟩, nodes_consecutive child (consecutive_cons.mp counted).2⟩
  | .ordered _ _ children, start, counted | .weighted _ _ children, start, counted =>
    List.forall_mem_cons.mpr
      ⟨⟨start, counted⟩, nodes_consecutive_all children (consecutive_cons.mp counted).2⟩
  | .parallel _ main background, start, counted => by
    obtain ⟨left, right⟩ := consecutive_append.mp (consecutive_cons.mp counted).2
    exact List.forall_mem_cons.mpr ⟨⟨start, counted⟩, List.forall_mem_append.mpr
      ⟨nodes_consecutive main left, nodes_consecutive background right⟩⟩
  | .condition _ _, start, counted | .action _ _, start, counted =>
    List.forall_mem_singleton.mpr ⟨start, counted⟩

theorem nodes_consecutive_all : (trees : Forest H) → {start : Nat} →
    Consecutive start trees.labels → ∀ node ∈ trees.nodes, ∃ first, Consecutive first node.labels
  | .nil, _, _ => nofun
  | .cons tree trees, _, counted => by
    obtain ⟨left, right⟩ := consecutive_append.mp counted
    exact List.forall_mem_append.mpr
      ⟨nodes_consecutive tree left, nodes_consecutive_all trees right⟩

end

theorem consecutive_of_mem {trees : List (Tree H)} {start : Nat}
    (counted : Consecutive start (trees.flatMap Tree.labels)) :
    ∀ tree ∈ trees, ∃ first, Consecutive first tree.labels := by
  induction trees generalizing start with
  | nil => nofun
  | cons tree trees ih =>
    obtain ⟨left, right⟩ := consecutive_append.mp counted
    exact List.forall_mem_cons.mpr ⟨⟨start, left⟩, ih right⟩

theorem pairwise_not_covers {trees : List (Tree H)} {start : Nat}
    (counted : Consecutive start (trees.flatMap Tree.labels)) :
    trees.Pairwise fun first second => ∀ id, ¬ (first.covers id ∧ second.covers id) := by
  induction trees generalizing start with
  | nil => exact List.Pairwise.nil
  | cons tree trees ih =>
    obtain ⟨left, right⟩ := consecutive_append.mp counted
    refine List.pairwise_cons.mpr ⟨?_, ih right⟩
    rintro other member id ⟨here, there⟩
    obtain ⟨first, numbered⟩ := consecutive_of_mem right other member
    have inside := (covers_iff_mem numbered).mp there
    obtain ⟨label, found, same⟩ := List.mem_map.mp inside
    refine counted.apart ((covers_iff_mem left).mp here) ?_
    exact List.mem_map.mpr ⟨label, List.mem_flatMap.mpr ⟨other, member, found⟩, same⟩

end Spans

def Reaches (id : Nat) (path : List (Tree H)) : Prop :=
  ∃ above node, path = above ++ [node] ∧ node.id = id ∧ ∀ other ∈ above, other.id ≠ id

section Paths

variable {id : Nat}

/-- Among siblings the path goes where the wake is routed to. -/
theorem path_of_route : (trees : Forest H) →
    trees.path id = ((trees.route? id).bind (trees.toList[·]?)).elim [] (Tree.path id)
  | .nil => rfl
  | .cons tree trees => by
    rw [Forest.path, Forest.route?, Forest.toList]
    split
    · rfl
    · rw [path_of_route trees, Option.bind_map]
      rfl

theorem route_of_inside : (trees : Forest H) → {start : Nat} → Consecutive start trees.labels →
    id ∈ trees.labels.map Label.id → ∃ index, trees.route? id = some index ∧
      ∃ child, trees.toList[index]? = some child ∧ child.covers id
  | .cons tree trees, _, counted, inside => by
    obtain ⟨left, right⟩ := consecutive_append.mp counted
    rw [Forest.route?]
    by_cases covered : tree.covers id
    · exact ⟨0, if_pos covered, tree, rfl, covered⟩
    · rw [Forest.labels, List.map_append, List.mem_append, ← covers_iff_mem left] at inside
      obtain ⟨index, routed, there⟩ :=
        route_of_inside trees right (inside.resolve_left covered)
      exact ⟨index + 1, by rw [if_neg covered, routed]; rfl, there⟩

theorem path_of_outside : (trees : Forest H) → {start : Nat} → Consecutive start trees.labels →
    id ∉ trees.labels.map Label.id → trees.path id = []
  | .nil, _, _, _ => rfl
  | .cons tree trees, _, counted, outside => by
    obtain ⟨left, right⟩ := consecutive_append.mp counted
    rw [Forest.labels, List.map_append, List.mem_append, not_or] at outside
    rw [Forest.path, if_neg (mt (covers_iff_mem left).mp outside.1)]
    exact path_of_outside trees right outside.2

theorem path_of_inside : (trees : Forest H) → {start : Nat} → Consecutive start trees.labels →
    id ∈ trees.labels.map Label.id →
    ∃ child ∈ trees.toList, child.covers id ∧ trees.path id = child.path id := by
  intro trees start counted inside
  obtain ⟨index, routed, child, found, covered⟩ := route_of_inside trees counted inside
  rw [path_of_route, routed, Option.bind_some, found]
  exact ⟨child, List.mem_of_getElem? found, covered, rfl⟩

theorem path_step {tree : Tree H} {start : Nat} (counted : Consecutive start tree.labels)
    (inside : id ∈ tree.labels.map Label.id) (other : id ≠ tree.id) :
    ∃ child ∈ tree.children, child.covers id ∧ tree.path id = tree :: child.path id := by
  cases tree with
  | relay role label child =>
    have below := (List.mem_cons.mp inside).resolve_left other
    have covered := (covers_iff_mem (consecutive_cons.mp counted).2).mpr below
    exact ⟨child, List.mem_cons_self, covered, congrArg _ (if_pos covered)⟩
  | repeater label child | loop label _ child | gate label _ _ _ child =>
    have below := (List.mem_cons.mp inside).resolve_left other
    have covered := (covers_iff_mem (consecutive_cons.mp counted).2).mpr below
    exact ⟨child, List.mem_cons_self, covered,
      congrArg _ ((if_neg other).trans (if_pos covered))⟩
  | ordered _ label children | weighted label _ children =>
    have below := (List.mem_cons.mp inside).resolve_left other
    obtain ⟨child, listed, covered, same⟩ :=
      path_of_inside children (consecutive_cons.mp counted).2 below
    exact ⟨child, listed, covered, congrArg _ same⟩
  | parallel label main background =>
    have below := (List.mem_cons.mp inside).resolve_left other
    obtain ⟨left, right⟩ := consecutive_append.mp (consecutive_cons.mp counted).2
    by_cases covered : main.covers id
    · exact ⟨main, List.mem_cons_self, covered, congrArg _ (if_pos covered)⟩
    · rw [List.map_append, List.mem_append, ← covers_iff_mem left] at below
      have beside := (covers_iff_mem right).mpr (below.resolve_left covered)
      exact ⟨background, List.mem_cons_of_mem _ List.mem_cons_self, beside,
        congrArg _ ((if_neg covered).trans (if_pos beside))⟩
  | condition | action => exact absurd (List.mem_singleton.mp inside) other

theorem path_own {tree : Tree H} {start : Nat} (counted : Consecutive start tree.labels) :
    tree.path tree.id = [tree] := by
  cases tree with
  | relay role label child =>
    have below := (consecutive_cons.mp counted).2
    exact congrArg _ (if_neg (mt (covers_iff_mem below).mp counted.fresh))
  | repeater | loop | gate => exact congrArg _ (if_pos rfl)
  | ordered _ label children | weighted label _ children =>
    exact congrArg _ (path_of_outside children (consecutive_cons.mp counted).2 counted.fresh)
  | parallel label main background =>
    obtain ⟨left, right⟩ := consecutive_append.mp (consecutive_cons.mp counted).2
    have outside := counted.fresh
    rw [List.map_append, List.mem_append, not_or] at outside
    exact congrArg _ ((if_neg (mt (covers_iff_mem left).mp outside.1)).trans
      (if_neg (mt (covers_iff_mem right).mp outside.2)))
  | condition | action => rfl

theorem child_consecutive {tree : Tree H} {start : Nat} (counted : Consecutive start tree.labels) :
    ∀ child ∈ tree.children, ∃ first, Consecutive first child.labels := by
  rw [labels_children] at counted
  exact consecutive_of_mem (consecutive_cons.mp counted).2

/-- Going down from child to child, each the one that covers the id, one comes to its node. -/
theorem path_reaches (tree : Tree H) {start : Nat} (counted : Consecutive start tree.labels)
    (inside : id ∈ tree.labels.map Label.id) : Reaches id (tree.path id) := by
  induction tree using Tree.descend generalizing start with | step tree ih
  by_cases own : id = tree.id
  · rw [own, path_own counted]
    exact ⟨[], tree, rfl, rfl, nofun⟩
  · obtain ⟨child, listed, covered, down⟩ := path_step counted inside own
    obtain ⟨first, numbered⟩ := child_consecutive counted child listed
    obtain ⟨above, node, passed, same, apart⟩ :=
      ih child listed numbered ((covers_iff_mem numbered).mp covered)
    rw [down, passed]
    exact ⟨tree :: above, node, rfl, same, List.forall_mem_cons.mpr ⟨Ne.symm own, apart⟩⟩

end Paths

section Errand

def Rehearsal.errand : Graph where
  nodes := [
    { kind := "Root", id := "root", children := ["both"], params := {} },
    { kind := "SimpleParallel", id := "both", children := ["errand", "patrol"], params := {} },
    { kind := "FunctionNode", id := "errand", params := { subtree := some (.inline {
        nodes := [
          { kind := "Root", id := "root", children := ["steps"], params := {} },
          { kind := "Sequencer", id := "steps", children := ["walk", "look"], params := {} },
          { kind := "ActionNode", id := "walk", params := {
              unit := some "Act"
              inputs := [.literal "walk", .literal "", .literal "--s", .literal ""] } },
          { kind := "ConditionNode", id := "look", params := {
              unit := some "Script", inputs := [.literal "look", .literal "t"] } }] }) } },
    { kind := "Repeater", id := "patrol", children := ["pace"], params := {} },
    { kind := "ActionNode", id := "pace", params := {
        unit := some "Act"
        inputs := [.literal "pace", .literal "", .literal "-s", .literal ""] } }]

theorem errand_builds :
    ∃ built, build rehearsed Rehearsal.errand = .ok built ∧ built.nodes = 8 := by
  have size : (build rehearsed Rehearsal.errand).toOption.map Built.nodes = some 8 := by
    decide +kernel
  cases made : build rehearsed Rehearsal.errand with
  | ok built => exact ⟨built, rfl, by rw [made] at size; exact Option.some.inj size⟩
  | error _ => rw [made] at size; cases size

end Errand

end ReactiveTree
