import ReactiveTree.Proofs.WellFormed

/-!
The nodes of a well-formed body hang together as a tree: a node that is reached has one parent, no
node lies below itself, and nothing lies below two children of one node.
-/

namespace ReactiveTree.Build

variable {H : Host} {sources : Sources H} {body : Body} {graph : Graph}

def Step (graph : Graph) (parent id : String) : Prop :=
  Reached graph parent ∧ ∃ node, graph.find? parent = some node ∧ id ∈ node.children

/-- A node and everything that links lead to from it. -/
def Below (graph : Graph) : String → String → Prop := Relation.ReflTransGen (Step graph)

theorem Step.reached {parent id : String} (step : Step graph parent id) : Reached graph id := by
  obtain ⟨above, node, found, listed⟩ := step
  exact .child above found listed

theorem Step.linked {parent id : String} (step : Step graph parent id) :
    ∃ position, Linked graph (some parent) position id := by
  obtain ⟨above, node, found, listed⟩ := step
  obtain ⟨position, there⟩ := List.mem_iff_getElem?.mp listed
  exact ⟨position, .child above found there⟩

theorem Reached.linked {id : String} (reached : Reached graph id) :
    ∃ source position, Linked graph source position id := by
  cases reached with
  | root rooted listed =>
    obtain ⟨position, there⟩ := List.mem_iff_getElem?.mp listed
    exact ⟨none, position, .root rooted there⟩
  | child above found listed =>
    obtain ⟨position, linked⟩ := Step.linked ⟨above, _, found, listed⟩
    exact ⟨_, position, linked⟩

theorem Below.reached {above id : String} (below : Below graph above id)
    (reached : Reached graph above) : Reached graph id := by
  induction below with
  | refl => exact reached
  | tail _ step _ => exact step.reached

namespace WellFormedBody

variable (wellFormed : WellFormedBody sources body)

include wellFormed

theorem parent_unique {first second id : String} (left : Step body.graph first id)
    (right : Step body.graph second id) : first = second := by
  obtain ⟨position, linked⟩ := left.linked
  obtain ⟨position', linked'⟩ := right.linked
  exact Option.some.inj (wellFormed.unshared id _ _ _ _ linked linked').1

/-- Going up from a node on a cycle stays on the cycle and never comes to the root. -/
theorem acyclic {id : String} (reached : Reached body.graph id) :
    ¬ Relation.TransGen (Step body.graph) id id := by
  induction reached with
  | root rooted listed =>
    intro cycle
    obtain ⟨last, _, step⟩ := Relation.TransGen.tail'_iff.mp cycle
    obtain ⟨position, linked⟩ := step.linked
    obtain ⟨position', there⟩ := List.mem_iff_getElem?.mp listed
    exact nomatch (wellFormed.unshared _ _ _ _ _ linked (.root rooted there)).1
  | @child parent id node above found listed ih =>
    intro cycle
    have down : Step body.graph parent id := ⟨above, node, found, listed⟩
    obtain ⟨last, path, step⟩ := Relation.TransGen.tail'_iff.mp cycle
    -- the cycle comes back by way of the only parent, which lies on it then
    obtain rfl := wellFormed.parent_unique step down
    exact ih (Relation.TransGen.head' down path)

theorem not_below_parent {parent id : String} (step : Step body.graph parent id) :
    ¬ Below body.graph id parent := by
  intro back
  exact wellFormed.acyclic step.1 (Relation.TransGen.head' step back)

theorem below_total {first second id : String} (left : Below body.graph first id)
    (right : Below body.graph second id) :
    Below body.graph first second ∨ Below body.graph second first := by
  have unique : Relator.RightUnique (Function.swap (Step body.graph)) :=
    fun _ _ _ up up' => wellFormed.parent_unique up up'
  rcases Relation.ReflTransGen.total_of_right_unique unique left.swap right.swap with up | up
  · exact .inr up.swap
  · exact .inl up.swap

/-- A child lies below no other child of its parent. -/
theorem siblings_apart {parent : String} {node : Descriptor} (reached : Reached body.graph parent)
    (found : body.graph.find? parent = some node) :
    node.children.Pairwise fun first second =>
      ∀ id, Below body.graph first id → ¬ Below body.graph second id := by
  have apart {first second : String} (left : Step body.graph parent first)
      (right : Step body.graph parent second) (different : first ≠ second) :
      ¬ Below body.graph first second := by
    intro down
    rcases Relation.ReflTransGen.cases_tail down with same | ⟨last, path, step⟩
    · exact different same.symm
    · obtain rfl := wellFormed.parent_unique step right
      exact wellFormed.not_below_parent left path
  apply List.pairwise_iff_getElem.mpr
  intro i j inside inside' earlier id left right
  have step (k : Nat) (bound : k < node.children.length) :
      Step body.graph parent node.children[k] :=
    ⟨reached, node, found, List.getElem_mem bound⟩
  have different : node.children[i] ≠ node.children[j] := by
    intro same
    have first : Linked body.graph (some parent) i node.children[i] :=
      .child reached found (List.getElem?_eq_getElem inside)
    have second : Linked body.graph (some parent) j node.children[i] :=
      .child reached found (same ▸ List.getElem?_eq_getElem inside')
    have := (wellFormed.unshared _ _ _ _ _ first second).2
    omega
  rcases wellFormed.below_total left right with down | down
  · exact apart (step i inside) (step j inside') different down
  · exact apart (step j inside') (step i inside) different.symm down

theorem root_not_below {root : Descriptor} {id : String} (rooted : body.graph.root? = some root)
    (reached : Reached body.graph id) : ¬ Below body.graph id root.id := by
  intro down
  obtain ⟨source, position, linked⟩ := (down.reached reached).linked
  exact wellFormed.rootless root source position rooted linked

end WellFormedBody

end ReactiveTree.Build
