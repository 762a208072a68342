import ReactiveTree.Proofs.Routing
import ReactiveTree.Proofs.Waking

/-!
Going down a tree: the children of a node beside their states, and what follows for all nodes below
from what children inherit.
-/

namespace ReactiveTree

variable {H : Host}

section Induction

@[elab_as_elim, induction_eliminator]
theorem Forest.induct {motive : Forest H → Prop} (nil : motive .nil)
    (cons : ∀ (tree : Tree H) (trees : Forest H), motive trees → motive (.cons tree trees))
    (trees : Forest H) : motive trees := by
  apply @Forest.rec H (fun _ => True) motive
  case nil => exact nil
  case cons => exact fun tree trees _ ih => cons tree trees ih
  all_goals intros; trivial

@[elab_as_elim, induction_eliminator]
theorem LiveForest.induct {motive : (trees : Forest H) → LiveForest H trees → Prop}
    (nil : motive .nil .nil)
    (cons : ∀ {tree : Tree H} {trees : Forest H} (head : Live H tree) (tail : LiveForest H trees),
      motive trees tail → motive (.cons tree trees) (.cons head tail))
    {trees : Forest H} (lives : LiveForest H trees) : motive trees lives := by
  apply @LiveForest.rec H (fun _ _ => True) motive
  case nil => exact nil
  case cons => exact fun head tail _ ih => cons head tail ih
  all_goals intros; trivial

end Induction

/-- The children of a forest with their states, in order. -/
def LiveForest.members : {trees : Forest H} → LiveForest H trees → List (Part H)
  | _, .nil => []
  | _, .cons head tail => ⟨_, head⟩ :: tail.members

/-- The children of a node with their states, in the order of `Tree.children`. -/
def Live.children : {tree : Tree H} → Live H tree → List (Part H)
  | _, .relay _ kid | _, .repeater _ _ kid | _, .loop _ _ kid | _, .gate _ _ _ _ kid => [⟨_, kid⟩]
  | _, .ordered _ kids | _, .weighted _ _ kids => kids.members
  | _, .parallel _ first second => [⟨_, first⟩, ⟨_, second⟩]
  | _, .condition _ _ | _, .action _ _ _ => []

theorem members_trees {trees : Forest H} (lives : LiveForest H trees) :
    lives.members.map Part.tree = trees.toList := by
  induction lives with
  | nil => rfl
  | cons _ _ ih => exact congrArg (_ :: ·) ih

theorem children_trees {tree : Tree H} (live : Live H tree) :
    live.children.map Part.tree = tree.children := by
  cases live with
  | ordered _ kids | weighted _ _ kids => exact members_trees kids
  | _ => rfl

theorem member_tree {trees : Forest H} {lives : LiveForest H trees} {kid : Part H}
    (member : kid ∈ lives.members) : kid.tree ∈ trees.toList := by
  rw [← members_trees lives]
  exact List.mem_map_of_mem member

section Nodes

theorem length_toList (trees : Forest H) : trees.toList.length = trees.length := by
  induction trees with
  | nil => rfl
  | cons _ _ ih => exact congrArg (· + 1) ih

theorem weighed_toList {trees : Forest H} (weighed : trees.Weighed) :
    ∀ tree ∈ trees.toList, tree.Weighed := by
  induction trees with
  | nil => exact List.forall_mem_nil _
  | cons _ _ ih => exact List.forall_mem_cons.mpr ⟨weighed.1, ih weighed.2⟩

theorem weighed_children {tree : Tree H} (weighed : tree.Weighed) :
    ∀ child ∈ tree.children, child.Weighed := by
  cases tree with
  | relay | repeater | loop | gate => exact List.forall_mem_singleton.mpr weighed
  | ordered => exact weighed_toList weighed
  | weighted => exact weighed_toList weighed.2.2
  | parallel => exact List.forall_mem_cons.mpr ⟨weighed.1, List.forall_mem_singleton.mpr weighed.2⟩
  | condition | action => exact List.forall_mem_nil _

theorem numbered_toList {trees : Forest H} (numbered : trees.Numbered) :
    ∀ tree ∈ trees.toList, tree.Numbered := by
  induction trees with
  | nil => exact List.forall_mem_nil _
  | cons _ _ ih => exact List.forall_mem_cons.mpr ⟨numbered.1, ih numbered.2.1⟩

theorem numbered_children {tree : Tree H} (numbered : tree.Numbered) :
    ∀ child ∈ tree.children, child.Numbered := by
  cases tree with
  | relay | repeater | loop | gate => exact List.forall_mem_singleton.mpr numbered.2
  | ordered | weighted => exact numbered_toList numbered.2
  | parallel =>
    exact List.forall_mem_cons.mpr
      ⟨numbered.2.1, List.forall_mem_singleton.mpr numbered.2.2.1⟩
  | condition | action => exact List.forall_mem_nil _

end Nodes

section Parts

mutual

theorem parts_trees : {tree : Tree H} → (live : Live H tree) →
    live.parts.map Part.tree = tree.nodes
  | _, .relay _ kid | _, .repeater _ _ kid | _, .loop _ _ kid | _, .gate _ _ _ _ kid =>
    congrArg (_ :: ·) (parts_trees kid)
  | _, .ordered _ kids | _, .weighted _ _ kids => congrArg (_ :: ·) (parts_trees_all kids)
  | _, .parallel _ first second => by
    rw [Live.parts, List.map_cons, List.map_append, parts_trees first, parts_trees second]
    rfl
  | _, .condition _ _ | _, .action _ _ _ => rfl

theorem parts_trees_all : {trees : Forest H} → (lives : LiveForest H trees) →
    lives.parts.map Part.tree = trees.nodes
  | _, .nil => rfl
  | _, .cons head tail => by
    rw [LiveForest.parts, List.map_append, parts_trees head, parts_trees_all tail]
    rfl

end

mutual

/-- What the children of a good node inherit holds of every node below it. -/
theorem forall_parts (good : Part H → Prop)
    (inherit : ∀ part, good part → ∀ kid ∈ part.live.children, good kid) :
    {tree : Tree H} → (live : Live H tree) → good ⟨tree, live⟩ → ∀ part ∈ live.parts, good part
  | _, .relay _ kid, top | _, .repeater _ _ kid, top | _, .loop _ _ kid, top
  | _, .gate _ _ _ _ kid, top =>
    List.forall_mem_cons.mpr
      ⟨top, forall_parts good inherit kid (inherit _ top _ List.mem_cons_self)⟩
  | _, .ordered _ kids, top | _, .weighted _ _ kids, top =>
    List.forall_mem_cons.mpr ⟨top, forall_parts_all good inherit kids (inherit _ top)⟩
  | _, .parallel _ first second, top => by
    obtain ⟨main, rest⟩ := List.forall_mem_cons.mp (inherit _ top)
    exact List.forall_mem_cons.mpr ⟨top, List.forall_mem_append.mpr
      ⟨forall_parts good inherit first main,
        forall_parts good inherit second (rest _ List.mem_cons_self)⟩⟩
  | _, .condition _ _, top | _, .action _ _ _, top => List.forall_mem_singleton.mpr top

theorem forall_parts_all (good : Part H → Prop)
    (inherit : ∀ part, good part → ∀ kid ∈ part.live.children, good kid) :
    {trees : Forest H} → (lives : LiveForest H trees) → (∀ kid ∈ lives.members, good kid) →
    ∀ part ∈ lives.parts, good part
  | _, .nil, _ => nofun
  | _, .cons head tail, top => by
    obtain ⟨first, rest⟩ := List.forall_mem_cons.mp top
    exact List.forall_mem_append.mpr
      ⟨forall_parts good inherit head first, forall_parts_all good inherit tail rest⟩

end

theorem forall_nodes (good : Tree H → Prop)
    (inherit : ∀ tree, good tree → ∀ child ∈ tree.children, good child) (tree : Tree H)
    (top : good tree) : ∀ node ∈ tree.nodes, good node := by
  rw [← parts_trees (Live.initial tree)]
  intro node member
  obtain ⟨part, there, rfl⟩ := List.mem_map.mp member
  refine forall_parts (fun part => good part.tree) ?_ _ top part there
  intro part above kid below
  apply inherit part.tree above
  rw [← children_trees part.live]
  exact List.mem_map_of_mem below

theorem numbered_of_mem {tree node : Tree H} (numbered : tree.Numbered)
    (member : node ∈ tree.nodes) : node.Numbered :=
  forall_nodes Tree.Numbered (fun _ => numbered_children) tree numbered node member

end Parts

end ReactiveTree
