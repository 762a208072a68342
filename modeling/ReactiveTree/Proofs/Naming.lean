import Mathlib.Data.List.Nodup
import ReactiveTree.Proofs.Numbering
import ReactiveTree.Proofs.Soundness

/-!
What the key of a node tells. The ids of the function nodes around a node and its own id are the
trail to it, and no two nodes of a tree have the same trail, since a body's walk enters each id once.
The key spells the trail out with slashes between the ids. As an id may contain slashes itself, two
trails can be spelled alike: a key names one node if no id begins with that of a function node
beside it and a slash.
-/

namespace ReactiveTree.Build

variable {H : Host} {sources : Sources H} {library : Library} {body inner : Body}

/-- A way down from a body to a node that is built for it. -/
inductive Trail (library : Library) : Body → List String → Prop where
  | node {body : Body} {id : String} (reached : Reached body.graph id) : Trail library body [id]
  | inside {body inner : Body} {id : String} {node : Descriptor} {trail : List String}
      (reached : Reached body.graph id) (found : body.graph.find? id = some node)
      (function : NodeKind.parse? node.kind = some .functionNode)
      (opens : Opens library body.opened node.params.subtree inner.graph inner.opened)
      (below : Trail library inner trail) : Trail library body (id :: trail)

theorem Trail.ne_nil {trail : List String} (followed : Trail library body trail) : trail ≠ [] := by
  cases followed <;> exact List.cons_ne_nil _ _

theorem Trail.head {trail : List String} (followed : Trail library body trail) :
    ∃ id, trail.head? = some id := by
  cases followed <;> exact ⟨_, rfl⟩

/-- The key of the node that a trail leads to from the scope on. -/
def spell (scope : String) (trail : List String) : String :=
  trail.foldl keyIn scope

/-- The nodes with the labels are those that the trails lead to, in order. The ids that the trails
begin with were entered on the way. -/
structure Traced (library : Library) (body : Body) (scope : String) (before after : List String)
    (labels : List Label) (trails : List (List String)) : Prop where
  spelled : labels.map Label.key = trails.map (spell scope)
  distinct : trails.Nodup
  followed : ∀ trail ∈ trails, Trail library body trail
  fresh : ∀ trail ∈ trails, ∀ id, trail.head? = some id → id ∉ before ∧ id ∈ after
  grows : before ⊆ after

namespace Traced

variable {scope : String} {before middle after : List String} {labels more : List Label}
  {trails others : List (List String)}

theorem nil : Traced library body scope before before [] [] := by
  constructor
  · rfl
  · exact List.nodup_nil
  · nofun
  · nofun
  · exact fun _ entered => entered

theorem append (first : Traced library body scope before middle labels trails)
    (rest : Traced library body scope middle after more others) :
    Traced library body scope before after (labels ++ more) (trails ++ others) := by
  constructor
  · rw [List.map_append, List.map_append, first.spelled, rest.spelled]
  · refine List.nodup_append.mpr ⟨first.distinct, rest.distinct, ?_⟩
    rintro trail early _ late rfl
    obtain ⟨id, begins⟩ := (first.followed trail early).head
    exact (rest.fresh trail late id begins).1 (first.fresh trail early id begins).2
  · intro trail member
    rcases List.mem_append.mp member with early | late
    · exact first.followed trail early
    · exact rest.followed trail late
  · intro trail member id begins
    rcases List.mem_append.mp member with early | late
    · obtain ⟨absent, entered⟩ := first.fresh trail early id begins
      exact ⟨absent, rest.grows entered⟩
    · obtain ⟨absent, entered⟩ := rest.fresh trail late id begins
      exact ⟨fun early => absent (first.grows early), entered⟩
  · exact List.Subset.trans first.grows rest.grows

theorem node {label : Label} {id : String} (named : label.key = keyIn scope id)
    (reached : Reached body.graph id) (absent : id ∉ before)
    (below : Traced library body scope (id :: before) after labels trails) :
    Traced library body scope before after (label :: labels) ([id] :: trails) := by
  constructor
  · rw [List.map_cons, List.map_cons, below.spelled, named]
    rfl
  · refine List.nodup_cons.mpr ⟨?_, below.distinct⟩
    intro member
    exact (below.fresh [id] member id rfl).1 List.mem_cons_self
  · exact List.forall_mem_cons.mpr ⟨.node reached, below.followed⟩
  · refine List.forall_mem_cons.mpr ⟨?_, ?_⟩
    · intro first begins
      obtain rfl := Option.some.inj begins
      exact ⟨absent, below.grows List.mem_cons_self⟩
    · intro trail member first begins
      obtain ⟨outside, entered⟩ := below.fresh trail member first begins
      exact ⟨fun early => outside (List.mem_cons_of_mem _ early), entered⟩
  · exact fun _ entered => below.grows (List.mem_cons_of_mem _ entered)

theorem function {label : Label} {node : Descriptor} {start last : List String}
    (named : label.key = keyIn scope node.id) (reached : Reached body.graph node.id)
    (found : body.graph.find? node.id = some node) (absent : node.id ∉ before)
    (function : NodeKind.parse? node.kind = some .functionNode)
    (opens : Opens library body.opened node.params.subtree inner.graph inner.opened)
    (below : Traced library inner (keyIn scope node.id) start last labels trails) :
    Traced library body scope before (node.id :: before) (label :: labels)
      ([node.id] :: trails.map (node.id :: ·)) := by
  constructor
  · rw [List.map_cons, List.map_cons, below.spelled, named, List.map_map]
    rfl
  · refine List.nodup_cons.mpr ⟨?_, below.distinct.map fun _ _ same => (List.cons.inj same).2⟩
    intro member
    obtain ⟨trail, there, same⟩ := List.mem_map.mp member
    exact (below.followed trail there).ne_nil (List.cons.inj same).2
  · refine List.forall_mem_cons.mpr ⟨.node reached, List.forall_mem_map.mpr ?_⟩
    intro trail member
    exact .inside reached found function opens (below.followed trail member)
  · have entered (id : String) (begins : some node.id = some id) :
        id ∉ before ∧ id ∈ node.id :: before := by
      obtain rfl := Option.some.inj begins
      exact ⟨absent, List.mem_cons_self⟩
    exact List.forall_mem_cons.mpr ⟨entered, List.forall_mem_map.mpr fun _ _ => entered⟩
  · exact List.subset_cons_self _ _

end Traced

section Walks

variable {build : Descriptor → Progress → Walk (Tree H × Progress)} {scope : String}

def Traces (library : Library) (body : Body) (scope : String)
    (build : Descriptor → Progress → Walk (Tree H × Progress)) : Prop :=
  ∀ node progress tree after, Reached body.graph node.id →
    body.graph.find? node.id = some node → build node progress = .ok (tree, after) →
    ∃ trails, Traced library body scope progress.entered after.entered tree.labels trails

theorem buildEach_traced (traces : Traces library body scope build) {parent : String}
    {ids : List String} (reached : ∀ id ∈ ids, Reached body.graph id) {progress after : Progress}
    {trees : List (Tree H)}
    (built : buildEach build body.graph parent ids progress = .ok (trees, after)) :
    ∃ trails, Traced library body scope progress.entered after.entered
      (trees.flatMap Tree.labels) trails := by
  induction ids generalizing progress trees with
  | nil =>
    cases built
    exact ⟨[], .nil⟩
  | cons id ids ih =>
    obtain ⟨node, tree, middle, rest, found, first, later, rfl⟩ := buildEach_cons_eq_ok.mp built
    obtain rfl := id_of_find found
    obtain ⟨here, below⟩ := List.forall_mem_cons.mp reached
    obtain ⟨trails, traced⟩ := traces node progress tree middle here found first
    obtain ⟨others, traced'⟩ := ih below later
    exact ⟨trails ++ others, traced.append traced'⟩

theorem buildBody_traced (traces : Traces library body scope build) {progress after : Progress}
    {tree : Tree H} (built : buildBody build body.graph scope progress = .ok (tree, after)) :
    after.entered = progress.entered ∧ ∃ root entered trails, body.graph.root? = some root ∧
      Traced library body scope [root.id] entered tree.labels trails := by
  obtain ⟨root, id, child, board, inner, rooted, _, single, found, walked, rfl⟩ :=
    buildBody_eq_ok.mp built
  obtain rfl := id_of_find found
  have reached : Reached body.graph child.id := .root rooted (single ▸ List.mem_singleton_self _)
  obtain ⟨trails, traced⟩ := traces child _ tree inner reached found walked
  exact ⟨rfl, root, inner.entered, trails, rooted, traced⟩

theorem buildNode_traces (depth : Nat) (body : Body) (scope : String) :
    Traces sources.library body scope
      (buildNode sources depth body.graph body.opened scope) := by
  induction depth generalizing body scope with
  | zero =>
    intro node progress tree after _ _ built
    cases built
  | succ depth ih =>
    intro node progress tree after reached found built
    obtain ⟨absent, kind, children, middle, parsed, counted, each, made⟩ :=
      buildNode_eq_ok.mp built
    rcases made with ⟨_, rfl, shaped⟩ | ⟨rfl, graph, names, tree', opens, walked, rfl⟩
    · have listed (id : String) (member : id ∈ node.children) : Reached body.graph id :=
        .child reached found member
      obtain ⟨trails, below⟩ := buildEach_traced (ih body scope) listed each
      rw [(shape_eq_ok.mp shaped).labels_eq]
      exact ⟨_, below.node rfl reached absent⟩
    · obtain ⟨rfl, rfl⟩ := buildEach_childless (of_decide_eq_true counted) each
      obtain ⟨entered, _, _, trails, _, below⟩ :=
        buildBody_traced (ih ⟨graph, names⟩ (keyIn scope node.id)) walked
      rw [entered]
      exact ⟨_, below.function rfl reached found absent parsed opens⟩

end Walks

section Keys

variable {scope function : String}

theorem keyIn_injective {id id' : String} (same : keyIn scope id = keyIn scope id') : id = id' := by
  unfold keyIn at same
  split at same
  · exact same
  · exact (String.append_right_inj _).mp same

theorem keyIn_ne_empty {id : String} (named : scope = "" → id ≠ "") : keyIn scope id ≠ "" := by
  unfold keyIn
  split
  · rename_i topmost
    exact named topmost
  · simp

theorem keyIn_below {id rest : String} :
    keyIn scope id ++ "/" ++ rest = keyIn scope (id ++ "/" ++ rest) := by
  unfold keyIn
  split <;> simp [String.append_assoc]

theorem spell_scoped {trail : List String} (named : scope ≠ "") (long : trail ≠ []) :
    ∃ rest, spell scope trail = scope ++ "/" ++ rest := by
  induction trail generalizing scope with
  | nil => exact absurd rfl long
  | cons id trail ih =>
    have below : keyIn scope id = scope ++ "/" ++ id := if_neg named
    cases trail with
    | nil => exact ⟨id, below⟩
    | cons next trail =>
      have named' : keyIn scope id ≠ "" := keyIn_ne_empty fun empty => absurd empty named
      obtain ⟨rest, spelled⟩ := ih named' (List.cons_ne_nil _ _)
      refine ⟨id ++ "/" ++ rest, ?_⟩
      rw [below] at spelled
      simpa [spell, below, String.append_assoc] using spelled

theorem longer_at_slash {id id' rest rest' : String} {between : List Char}
    (longer : id'.toList = id.toList ++ between)
    (same : '/' :: rest.toList = between ++ '/' :: rest'.toList) :
    id = id' ∨ ∃ tail, id' = id ++ "/" ++ tail := by
  cases between with
  | nil => exact .inl (String.toList_inj.mp (by simpa using longer.symm))
  | cons slash tail =>
    obtain ⟨rfl, _⟩ := List.cons.inj same
    refine .inr ⟨String.ofList tail, String.toList_inj.mp ?_⟩
    simpa using longer

/-- Where two texts are cut at a slash, one of the first parts is the beginning of the other. -/
theorem cut_at_slash {id id' rest rest' : String} (same : id ++ "/" ++ rest = id' ++ "/" ++ rest') :
    id = id' ∨ (∃ tail, id' = id ++ "/" ++ tail) ∨ ∃ tail, id = id' ++ "/" ++ tail := by
  have chars : id.toList ++ '/' :: rest.toList = id'.toList ++ '/' :: rest'.toList := by
    simpa using congrArg String.toList same
  rcases List.append_eq_append_iff.mp chars with ⟨between, first, second⟩ | ⟨between, first, second⟩
  · exact (longer_at_slash first second).imp_right .inl
  · exact (longer_at_slash first second).imp Eq.symm .inr

end Keys

def Encloses (graph : Graph) (id : String) : Prop :=
  ∃ node, Reached graph id ∧ graph.find? id = some node ∧
    NodeKind.parse? node.kind = some .functionNode

/-- No id in the body or in what is expanded below it begins with the id of a function node beside it
and a slash. -/
def Apart (library : Library) (body : Body) : Prop :=
  ∀ inner function id rest, Expanded library body inner → Encloses inner.graph function →
    Reached inner.graph id → id ≠ function ++ "/" ++ rest

/-- The ids of a graph keep out of the way of the keys in its function nodes. -/
structure Separated (library : Library) (graph : Graph) : Prop where
  apart : Apart library ⟨graph, []⟩
  named : ∀ function, Encloses graph function → function ≠ ""
  topmost : ∀ root function rest, graph.root? = some root → Encloses graph function →
    root.id ≠ function ++ "/" ++ rest

/-- It is enough that no id has a slash in it. -/
theorem separated_of_plain {graph : Graph}
    (plain : ∀ body id, Expanded library ⟨graph, []⟩ body → Reached body.graph id →
      '/' ∉ id.toList)
    (root : ∀ root, graph.root? = some root → '/' ∉ root.id.toList)
    (named : ∀ function, Encloses graph function → function ≠ "") : Separated library graph := by
  have slashed (function rest : String) : '/' ∈ (function ++ "/" ++ rest).toList := by simp
  constructor
  · rintro body function _ rest expanded _ reached rfl
    exact plain body _ expanded reached (slashed function rest)
  · exact named
  · intro top function rest rooted _ clash
    exact root top rooted (clash ▸ slashed function rest)

theorem Reached.listed {graph : Graph} {id : String} (reached : Reached graph id) :
    ∃ node ∈ graph.nodes, id ∈ node.children := by
  cases reached with
  | root rooted listed => exact ⟨_, List.mem_of_find?_eq_some rooted, listed⟩
  | child _ found listed => exact ⟨_, List.mem_of_find?_eq_some found, listed⟩

section Spelling

variable {scope : String} {trail trail' : List String}

theorem Trail.spell_inside (below : Trail library inner trail) {id : String}
    (named : scope = "" → id ≠ "") :
    ∃ rest, spell scope (id :: trail) = keyIn scope (id ++ "/" ++ rest) := by
  obtain ⟨rest, spelled⟩ := spell_scoped (keyIn_ne_empty named) below.ne_nil
  exact ⟨rest, spelled.trans keyIn_below⟩

theorem Trail.spell_injective (apart : Apart library body)
    (named : scope = "" → ∀ function, Encloses body.graph function → function ≠ "")
    (left : Trail library body trail) (right : Trail library body trail')
    (same : spell scope trail = spell scope trail') : trail = trail' := by
  induction left generalizing scope trail' with
  | node reached =>
    cases right with
    | node => rw [keyIn_injective same]
    | @inside _ _ id' node' _ reached' found' function' opens' below' =>
      have encloses : Encloses _ id' := ⟨node', reached', found', function'⟩
      obtain ⟨rest, spelled⟩ := below'.spell_inside fun empty => named empty _ encloses
      have clash := keyIn_injective (same.trans spelled)
      exact absurd clash (apart _ _ _ rest .refl encloses reached)
  | @inside body inner id node trail reached found function opens below ih =>
    have encloses : Encloses body.graph id := ⟨node, reached, found, function⟩
    have deeper : Enters library body inner := ⟨id, node, reached, found, function, opens⟩
    obtain ⟨rest, spelled⟩ := below.spell_inside fun empty => named empty id encloses
    cases right with
    | node reached' =>
      have clash := keyIn_injective (same.symm.trans spelled)
      exact absurd clash (apart _ _ _ rest .refl encloses reached')
    | @inside _ inner' id' node' trail' reached' found' function' opens' below' =>
      have encloses' : Encloses body.graph id' := ⟨node', reached', found', function'⟩
      obtain ⟨rest', spelled'⟩ := below'.spell_inside fun empty => named empty id' encloses'
      have cut := cut_at_slash (keyIn_injective (spelled.symm.trans (same.trans spelled')))
      -- one id goes on where the other ends only if it looks like a key inside the other's body
      rcases cut with rfl | ⟨tail, clash⟩ | ⟨tail, clash⟩
      · obtain rfl := Option.some.inj (found.symm.trans found')
        obtain ⟨graph, names⟩ := inner
        cases inner'
        obtain ⟨rfl, rfl⟩ := opens.unique opens'
        have inside : Apart library ⟨graph, names⟩ := fun _ function id rest expanded =>
          apart _ function id rest (.head deeper expanded)
        have nonempty := keyIn_ne_empty fun empty => named empty id encloses
        rw [ih inside (fun empty => absurd empty nonempty) below' same]
      · exact absurd clash (apart _ _ _ tail .refl encloses reached')
      · exact absurd clash (apart _ _ _ tail .refl encloses' reached)

end Spelling

theorem build_traced {graph : Graph} {built : Built H}
    (ok : ReactiveTree.build sources graph = .ok built) :
    ∃ root trails, graph.root? = some root ∧ ([root.id] :: trails).Nodup ∧
      built.tree.labels.map Label.key = ([root.id] :: trails).map (spell "") ∧
      (∀ trail ∈ trails, Trail sources.library ⟨graph, []⟩ trail) := by
  obtain ⟨root, tree, progress, rooted, walked, rfl⟩ := build_eq_ok.mp ok
  have traces : Traces sources.library ⟨graph, []⟩ ""
      (buildNode sources (levels sources.library graph) graph [] "") := buildNode_traces _ _ ""
  obtain ⟨_, root', entered, trails, rooted', traced⟩ := buildBody_traced traces walked
  obtain rfl := Option.some.inj (rooted.symm.trans rooted')
  refine ⟨root, trails, rooted, ?_, ?_, traced.followed⟩
  · refine List.nodup_cons.mpr ⟨?_, traced.distinct⟩
    intro member
    exact (traced.fresh [root.id] member root.id rfl).1 (List.mem_singleton_self _)
  · rw [Tree.labels, List.map_cons, List.map_cons, traced.spelled]
    rfl

theorem Trail.spell_topmost {graph : Graph} {root : Descriptor} {trail : List String}
    (separated : Separated library graph) (rooted : graph.root? = some root)
    (followed : Trail library ⟨graph, []⟩ trail) (same : spell "" [root.id] = spell "" trail) :
    [root.id] = trail := by
  cases followed with
  | node => exact congrArg (fun id => [id]) same
  | @inside _ _ id node _ reached found function _ below =>
    have encloses : Encloses graph id := ⟨node, reached, found, function⟩
    obtain ⟨rest, spelled⟩ := below.spell_inside fun _ => separated.named id encloses
    exact absurd (same.trans spelled) (separated.topmost root id rest rooted encloses)

end ReactiveTree.Build

namespace ReactiveTree

open Build

variable {H : Host}

/-- No two nodes of a tree are found on the same trail, and the key of each spells its trail out. So
the keys of two nodes differ as well, unless ids are mistaken for ways into function nodes. -/
theorem keys_tell_nodes_apart {sources : Sources H} {graph : Graph} {built : Built H}
    (ok : build sources graph = .ok built) :
    (∃ root trails, graph.root? = some root ∧ ([root.id] :: trails).Nodup ∧
      (∀ trail ∈ trails, Trail sources.library ⟨graph, []⟩ trail) ∧
      built.tree.labels.map Label.key = ([root.id] :: trails).map (spell "")) ∧
    (Separated sources.library graph → (built.tree.labels.map Label.key).Nodup) := by
  obtain ⟨root, trails, rooted, distinct, spelled, followed⟩ := build_traced ok
  refine ⟨⟨root, trails, rooted, distinct, followed, spelled⟩, ?_⟩
  intro separated
  rw [spelled]
  apply distinct.map_on
  intro trail member trail' member' same
  rcases List.mem_cons.mp member with rfl | below
  · rcases List.mem_cons.mp member' with rfl | below'
    · rfl
    · exact (followed trail' below').spell_topmost separated rooted same
  · rcases List.mem_cons.mp member' with rfl | below'
    · exact ((followed trail below).spell_topmost separated rooted same.symm).symm
    · exact Trail.spell_injective separated.apart (fun _ => separated.named) (followed trail below)
        (followed trail' below') same

namespace Rehearsal

def room : Graph where
  nodes := [
    { kind := "Root", id := "root", children := ["ready"], params := {} },
    { kind := "ConditionNode", id := "ready", params := {
        unit := some "Script", inputs := [.literal "ready", .literal "t"] } }]

def roomAt (id : String) : Descriptor :=
  { kind := "FunctionNode", id, params := { subtree := some (.inline room) } }

def suite : Graph where
  nodes := [
    { kind := "Root", id := "root", children := ["both"], params := {} },
    { kind := "Sequencer", id := "both", children := ["left", "right"], params := {} },
    roomAt "left", roomAt "right"]

/-- A node beside a function node, with an id that looks like a key in there. -/
def annex : Graph where
  nodes := [
    { kind := "Root", id := "root", children := ["both"], params := {} },
    { kind := "Sequencer", id := "both", children := ["left", "left/ready"], params := {} },
    roomAt "left",
    { kind := "ConditionNode", id := "left/ready", params := {
        unit := some "Script", inputs := [.literal "annex", .literal "t"] } }]

theorem suite_expanded {body : Body} (expanded : Expanded {} ⟨suite, []⟩ body) :
    body.graph.nodes ⊆ suite.nodes ++ room.nodes := by
  have rooms : ∀ node ∈ suite.nodes ++ room.nodes,
      NodeKind.parse? node.kind = some .functionNode → ∃ id, node = roomAt id := by
    simp only [suite, room, List.cons_append, List.nil_append, List.forall_mem_cons]
    exact ⟨nofun, nofun, fun _ => ⟨"left", rfl⟩, fun _ => ⟨"right", rfl⟩, nofun, nofun, nofun⟩
  induction expanded with
  | refl => exact List.subset_append_left _ _
  | @tail _ inner _ enters ih =>
    obtain ⟨graph, names⟩ := inner
    obtain ⟨_, node, _, found, function, opens⟩ := enters
    obtain ⟨id, rfl⟩ := rooms node (ih (List.mem_of_find?_eq_some found)) function
    cases opens
    exact List.subset_append_right _ _

theorem suite_separated : Separated {} suite := by
  have plain : ∀ node ∈ suite.nodes ++ room.nodes,
      '/' ∉ node.id.toList ∧ ∀ id ∈ node.children, '/' ∉ id.toList ∧ id ≠ "" := by decide
  apply separated_of_plain
  · intro body id expanded reached
    obtain ⟨node, member, listed⟩ := reached.listed
    exact ((plain node (suite_expanded expanded member)).2 id listed).1
  · intro root rooted
    exact (plain root (suite_expanded .refl (List.mem_of_find?_eq_some rooted))).1
  · rintro function ⟨_, reached, _⟩
    obtain ⟨node, member, listed⟩ := reached.listed
    exact ((plain node (suite_expanded .refl member)).2 function listed).2

end Rehearsal

theorem keys_of_toOption (graph : Graph) (keys : List String)
    (named : (build rehearsed graph).toOption.map (·.tree.labels.map Label.key) = some keys) :
    ∃ built, build rehearsed graph = .ok built ∧ built.tree.labels.map Label.key = keys := by
  cases made : build rehearsed graph with
  | ok built => exact ⟨built, rfl, by rw [made] at named; exact Option.some.inj named⟩
  | error _ => rw [made] at named; cases named

theorem suite_keys_differ : ∃ built, build rehearsed Rehearsal.suite = .ok built ∧
    built.tree.labels.map Label.key =
      ["root", "both", "left", "left/ready", "right", "right/ready"] ∧
    Separated {} Rehearsal.suite ∧ (built.tree.labels.map Label.key).Nodup := by
  obtain ⟨built, ok, keys⟩ := keys_of_toOption Rehearsal.suite
    ["root", "both", "left", "left/ready", "right", "right/ready"] (by decide +kernel)
  have distinct := (keys_tell_nodes_apart ok).2 Rehearsal.suite_separated
  exact ⟨built, ok, keys, Rehearsal.suite_separated, distinct⟩

/-- The condition in the function node and the one beside it have the same key. -/
theorem annex_keys_clash : ∃ built, build rehearsed Rehearsal.annex = .ok built ∧
    built.tree.labels.map Label.key = ["root", "both", "left", "left/ready", "left/ready"] ∧
    ¬ (built.tree.labels.map Label.key).Nodup := by
  obtain ⟨built, ok, keys⟩ := keys_of_toOption Rehearsal.annex
    ["root", "both", "left", "left/ready", "left/ready"] (by decide +kernel)
  refine ⟨built, ok, keys, ?_⟩
  rw [keys]
  decide

end ReactiveTree
