import Mathlib.Data.List.Nodup
import Mathlib.Data.List.Pairwise
import ReactiveTree.Proofs.Linkage
import ReactiveTree.Proofs.Seeding

/-!
A build that succeeds has seen a well-formed graph. The walk of a body enters each id once, so the
ids it entered are the id it started from and the children of the ids it entered, each listed once:
that is what makes every link the only one to its target.
-/

namespace ReactiveTree.Build

variable {H : Host} {sources : Sources H}

def kids (graph : Graph) (id : String) : List String :=
  ((graph.find? id).map Descriptor.children).getD []

theorem kids_of_find {graph : Graph} {id : String} {node : Descriptor}
    (found : graph.find? id = some node) : kids graph id = node.children := by
  rw [kids, found]
  rfl

theorem id_of_find {graph : Graph} {id : String} {node : Descriptor}
    (found : graph.find? id = some node) : node.id = id := by
  unfold Graph.find? at found
  simpa using List.find?_some found

theorem Opens.unique {library : Library} {opened : List String} {subtree : Option Subtree}
    {body body' : Graph} {names names' : List String}
    (opens : Opens library opened subtree body names)
    (opens' : Opens library opened subtree body' names') : body = body' ∧ names = names' := by
  cases opens with
  | inline =>
    cases opens'
    exact ⟨rfl, rfl⟩
  | named _ found =>
    cases opens' with
    | named _ found' => exact ⟨Option.some.inj (found.symm.trans found'), rfl⟩

def Keeps (before after : Blackboard) : Prop :=
  ∀ name kind, before.Knows name kind → after.Knows name kind

theorem Accepted.mono {before after : Blackboard} {body : Body}
    (accepted : Accepted sources before.Knows body) (keeps : Keeps before after) :
    Accepted sources after.Knows body := by
  intro inner expanded
  obtain ⟨wellFormed, seeded⟩ := accepted inner expanded
  exact ⟨wellFormed, fun name kind seeds => keeps name kind (seeded name kind seeds)⟩

def Passes (sources : Sources H) (board : Blackboard) (body : Body) (id : String) : Prop :=
  ∃ node kind, body.graph.find? id = some node ∧ NodeKind.parse? node.kind = some kind ∧
    Fits sources body.opened node kind ∧ (kind = .functionNode → ∀ inner names,
      Opens sources.library body.opened node.params.subtree inner names →
      Accepted sources board.Knows ⟨inner, names⟩)

/-- What a walk did that started from the ids, in order, and entered the visited ones. -/
structure Walked (sources : Sources H) (body : Body) (ids : List String) (before after : Progress)
    (visited : List String) : Prop where
  entered : ∀ id, id ∈ after.entered ↔ id ∈ visited ∨ id ∈ before.entered
  fresh : ∀ id ∈ visited, id ∉ before.entered
  distinct : visited.Nodup
  linked : visited.Perm (ids ++ visited.flatMap (kids body.graph))
  passes : ∀ id ∈ visited, Passes sources after.blackboard body id
  keeps : Keeps before.blackboard after.blackboard

namespace Walked

variable {body : Body} {ids more visited visited' : List String} {before middle after : Progress}

theorem nil : Walked sources body [] before before [] := by
  constructor
  · simp
  · nofun
  · exact List.nodup_nil
  · exact .refl _
  · nofun
  · exact fun _ _ known => known

theorem append (first : Walked sources body ids before middle visited)
    (rest : Walked sources body more middle after visited') :
    Walked sources body (ids ++ more) before after (visited ++ visited') := by
  have apart : ∀ id ∈ visited', id ∉ visited ∧ id ∉ before.entered := by
    intro id member
    have absent := rest.fresh id member
    rw [first.entered] at absent
    exact not_or.mp absent
  constructor
  · intro id
    rw [rest.entered, first.entered, List.mem_append, or_left_comm, or_assoc]
  · intro id member
    rcases List.mem_append.mp member with early | late
    · exact first.fresh id early
    · exact (apart id late).2
  · refine List.nodup_append.mpr ⟨first.distinct, rest.distinct, ?_⟩
    rintro id early _ late rfl
    exact (apart id late).1 early
  · rw [List.flatMap_append]
    refine (first.linked.append rest.linked).trans ?_
    rw [List.append_assoc, List.append_assoc]
    exact List.perm_append_comm_assoc _ _ _ |>.append_left _
  · intro id member
    rcases List.mem_append.mp member with early | late
    · -- the rest may have declared more, which takes nothing back
      obtain ⟨node, kind, found, parsed, fits, inside⟩ := first.passes id early
      exact ⟨node, kind, found, parsed, fits, fun function inner names opens =>
        (inside function inner names opens).mono rest.keeps⟩
    · exact rest.passes id late
  · exact fun name kind known => rest.keeps name kind (first.keeps name kind known)

/-- A node is entered before its children are. -/
theorem node {descriptor : Descriptor} {progress : Progress}
    (absent : descriptor.id ∉ progress.entered)
    (found : body.graph.find? descriptor.id = some descriptor)
    (below : Walked sources body descriptor.children
      { progress with next := progress.next + 1, entered := descriptor.id :: progress.entered }
      middle visited)
    (entered : after.entered = middle.entered)
    (keeps : Keeps middle.blackboard after.blackboard)
    (passes : Passes sources after.blackboard body descriptor.id) :
    Walked sources body [descriptor.id] progress after (descriptor.id :: visited) := by
  have outside : ∀ id ∈ visited, id ≠ descriptor.id ∧ id ∉ progress.entered := by
    intro id member
    exact not_or.mp (mt List.mem_cons.mpr (below.fresh id member))
  constructor
  · intro id
    rw [entered, below.entered, List.mem_cons, List.mem_cons, or_left_comm, or_assoc]
  · intro id member
    rcases List.mem_cons.mp member with rfl | later
    · exact absent
    · exact (outside id later).2
  · refine List.nodup_cons.mpr ⟨?_, below.distinct⟩
    intro member
    exact (outside _ member).1 rfl
  · rw [List.flatMap_cons, kids_of_find found]
    exact below.linked.cons _
  · intro id member
    rcases List.mem_cons.mp member with rfl | later
    · exact passes
    · obtain ⟨node, kind, found, parsed, fits, inside⟩ := below.passes id later
      exact ⟨node, kind, found, parsed, fits, fun function inner names opens =>
        (inside function inner names opens).mono keeps⟩
  · exact fun name kind known => keeps name kind (below.keeps name kind known)

end Walked

section Bodies

variable {body : Body} {root : Descriptor} {child : String} {visited : List String}

theorem reached_visited (rooted : body.graph.root? = some root) (single : root.children = [child])
    (linked : visited.Perm (child :: visited.flatMap (kids body.graph))) {id : String}
    (reached : Reached body.graph id) : id ∈ visited := by
  induction reached with
  | root rooted' listed =>
    obtain rfl := Option.some.inj (rooted.symm.trans rooted')
    rw [single] at listed
    exact linked.mem_iff.mpr (List.mem_cons.mpr (.inl (List.mem_singleton.mp listed)))
  | child above found listed ih =>
    have listed : _ ∈ kids body.graph _ := kids_of_find found ▸ listed
    exact linked.mem_iff.mpr (List.mem_cons_of_mem _ (List.mem_flatMap.mpr ⟨_, ih, listed⟩))

theorem Linked.reached {graph : Graph} {source : Option String} {position : Nat} {id : String}
    (linked : Linked graph source position id) : Reached graph id := by
  cases linked with
  | root rooted listed => exact .root rooted (List.mem_of_getElem? listed)
  | child above found listed => exact .child above found (List.mem_of_getElem? listed)

/-- The ids that a body's walk is told to enter are all different. -/
theorem linked_unique (rooted : body.graph.root? = some root) (single : root.children = [child])
    (linked : visited.Perm (child :: visited.flatMap (kids body.graph))) (distinct : visited.Nodup)
    {id : String} {source source' : Option String} {position position' : Nat}
    (left : Linked body.graph source position id)
    (right : Linked body.graph source' position' id) :
    source = source' ∧ position = position' := by
  obtain ⟨topmost, below⟩ := List.nodup_cons.mp (linked.nodup_iff.mp distinct)
  obtain ⟨each, apart⟩ := List.nodup_flatMap.mp below
  have visits {parent : String} (above : Reached body.graph parent) : parent ∈ visited :=
    reached_visited rooted single linked above
  have top {root' : Descriptor} {position : Nat} {id : String}
      (rooted' : body.graph.root? = some root')
      (listed : root'.children[position]? = some id) : position = 0 ∧ id = child := by
    obtain rfl := Option.some.inj (rooted.symm.trans rooted')
    rw [single] at listed
    obtain ⟨inside, same⟩ := List.getElem?_eq_some_iff.mp listed
    have first : position = 0 := Nat.lt_one_iff.mp inside
    subst first
    exact ⟨rfl, same.symm⟩
  have not_top {parent : String} {node : Descriptor} {position : Nat}
      (above : Reached body.graph parent) (found : body.graph.find? parent = some node)
      (listed : node.children[position]? = some child) : False := by
    have listed := kids_of_find found ▸ List.mem_of_getElem? listed
    exact topmost (List.mem_flatMap.mpr ⟨parent, visits above, listed⟩)
  cases left with
  | root rooted' listed =>
    obtain ⟨rfl, rfl⟩ := top rooted' listed
    cases right with
    | root rooted' listed => exact ⟨rfl, (top rooted' listed).1.symm⟩
    | child above found listed => exact (not_top above found listed).elim
  | @child parent _ node _ above found listed =>
    cases right with
    | root rooted' listed' =>
      obtain ⟨rfl, rfl⟩ := top rooted' listed'
      exact (not_top above found listed).elim
    | @child parent' _ node' _ above' found' listed' =>
      have same : parent = parent' := by
        -- the lists of two nodes have no id in common, since each id is listed once in all
        by_contra different
        have symmetric : Std.Symm (Function.onFun List.Disjoint (kids body.graph)) :=
          ⟨fun _ _ => List.disjoint_symm⟩
        have disjoint := apart.forall (visits above) (visits above') different
        exact disjoint (kids_of_find found ▸ List.mem_of_getElem? listed)
          (kids_of_find found' ▸ List.mem_of_getElem? listed')
      subst same
      obtain rfl := Option.some.inj (found.symm.trans found')
      have nodup : node.children.Nodup := kids_of_find found ▸ each parent (visits above)
      obtain ⟨inside, _⟩ := List.getElem?_eq_some_iff.mp listed
      exact ⟨rfl, (List.getElem?_inj inside nodup).mp (listed.trans listed'.symm)⟩

theorem wellFormedBody_of_walked {before after : Progress}
    (rooted : body.graph.root? = some root) (single : root.children = [child])
    (opening : before.entered = [root.id]) (walked : Walked sources body [child] before after visited)
    (declares : ∀ declared ∈ body.graph.declarations, Declares declared) :
    WellFormedBody sources body := by
  have visits {id : String} (reached : Reached body.graph id) : id ∈ visited :=
    reached_visited rooted single walked.linked reached
  constructor
  · exact ⟨root, child, rooted, single⟩
  · intro id reached
    obtain ⟨node, _, found, _⟩ := walked.passes id (visits reached)
    exact ⟨node, found⟩
  · intro id source source' position position' left right
    exact linked_unique rooted single walked.linked walked.distinct left right
  · intro root' source position rooted' linked
    obtain rfl := Option.some.inj (rooted.symm.trans rooted')
    have absent := walked.fresh root.id (visits linked.reached)
    rw [opening] at absent
    exact absent (List.mem_singleton_self _)
  · intro id node reached found
    obtain ⟨node', kind, found', parsed, fits, _⟩ := walked.passes id (visits reached)
    obtain rfl := Option.some.inj (found.symm.trans found')
    exact ⟨kind, parsed, fits⟩
  · exact declares

end Bodies

variable {build : Descriptor → Progress → Walk (Tree H × Progress)} {body : Body}

def Visits (sources : Sources H) (body : Body)
    (build : Descriptor → Progress → Walk (Tree H × Progress)) : Prop :=
  ∀ node progress tree after, body.graph.find? node.id = some node →
    build node progress = .ok (tree, after) →
    ∃ visited, Walked sources body [node.id] progress after visited

theorem buildEach_walked (visits : Visits sources body build) {parent : String}
    {ids : List String} {progress after : Progress} {trees : List (Tree H)}
    (built : buildEach build body.graph parent ids progress = .ok (trees, after)) :
    (∃ visited, Walked sources body ids progress after visited) ∧ trees.length = ids.length := by
  induction ids generalizing progress trees with
  | nil =>
    cases built
    exact ⟨⟨[], .nil⟩, rfl⟩
  | cons id ids ih =>
    obtain ⟨node, tree, middle, rest, found, first, later, rfl⟩ := buildEach_cons_eq_ok.mp built
    obtain rfl := id_of_find found
    obtain ⟨visited, walked⟩ := visits node progress tree middle found first
    obtain ⟨⟨visited', walked'⟩, counted⟩ := ih later
    exact ⟨⟨_, walked.append walked'⟩, congrArg (· + 1) counted⟩

/-- A body that was walked to its end is well-formed, and so is all that is expanded in it. -/
theorem buildBody_accepted (visits : Visits sources body build) {scope : String}
    {progress after : Progress} {tree : Tree H}
    (built : buildBody build body.graph scope progress = .ok (tree, after)) :
    Accepted sources after.blackboard.Knows body ∧ after.entered = progress.entered ∧
      Keeps progress.blackboard after.blackboard := by
  obtain ⟨root, id, child, board, inner, rooted, declared, single, found, walked, rfl⟩ :=
    buildBody_eq_ok.mp built
  obtain rfl := id_of_find found
  obtain ⟨visited, walked⟩ := visits child _ tree inner found walked
  obtain ⟨declares, kept, seeded⟩ := declareAll_sound declared
  refine ⟨?_, rfl, fun name kind known => walked.keeps name kind (kept name kind known)⟩
  intro deeper expanded
  rcases Relation.ReflTransGen.cases_head expanded with rfl | ⟨next, enters, below⟩
  · refine ⟨wellFormedBody_of_walked rooted single rfl walked declares, ?_⟩
    rintro name kind ⟨declaration, member, rfl, kinded, valued⟩
    exact walked.keeps _ kind (seeded declaration member kind kinded valued)
  · obtain ⟨id, node, reached, found, function, opens⟩ := enters
    obtain ⟨node', kind, found', parsed, _, inside⟩ :=
      walked.passes id (reached_visited rooted single walked.linked reached)
    obtain rfl := Option.some.inj (found.symm.trans found')
    obtain rfl := Option.some.inj (parsed.symm.trans function)
    exact inside rfl next.graph next.opened opens deeper below

theorem buildNode_visits (depth : Nat) (body : Body) (scope : String) :
    Visits sources body (buildNode sources depth body.graph body.opened scope) := by
  induction depth generalizing body scope with
  | zero =>
    intro node progress tree after _ built
    cases built
  | succ depth ih =>
    intro node progress tree after found built
    obtain ⟨absent, kind, children, middle, parsed, counted, each, made⟩ :=
      buildNode_eq_ok.mp built
    obtain ⟨⟨visited, below⟩, same⟩ := buildEach_walked (ih body scope) each
    rcases made with ⟨plain, rfl, shaped⟩ | ⟨rfl, inner, names, tree', opens, walked, rfl⟩
    · have fits : Fits sources body.opened node kind :=
        (exists_shapes same counted plain).mp ⟨tree, shape_eq_ok.mp shaped⟩
      refine ⟨_, below.node absent found rfl (fun _ _ known => known) ?_⟩
      exact ⟨node, kind, found, parsed, fits, fun function => absurd function plain⟩
    · obtain ⟨accepted, entered, keeps⟩ :=
        buildBody_accepted (ih ⟨inner, names⟩ (keyIn scope node.id)) walked
      refine ⟨_, below.node absent found entered keeps ?_⟩
      refine ⟨node, .functionNode, found, parsed, ?_, ?_⟩
      · exact ⟨counted, nofun, nofun, nofun, nofun, fun _ => ⟨inner, names, opens⟩⟩
      · intro _ inner' names' opens'
        obtain ⟨rfl, rfl⟩ := opens.unique opens'
        exact accepted

theorem wellFormed_of_build {graph : Graph} {built : Built H}
    (ok : ReactiveTree.build sources graph = .ok built) : WellFormed sources graph := by
  obtain ⟨root, tree, progress, _, walked, _⟩ := build_eq_ok.mp ok
  obtain ⟨accepted, _, _⟩ :=
    buildBody_accepted (buildNode_visits _ ⟨graph, []⟩ "") walked
  constructor
  · intro body expanded
    exact (accepted body expanded).1
  · intro body body' name kind kind' expanded expanded' seeds seeds'
    have first := (accepted body expanded).2 name kind seeds
    have second := (accepted body' expanded').2 name kind' seeds'
    exact Option.some.inj (first.symm.trans second)

end ReactiveTree.Build
