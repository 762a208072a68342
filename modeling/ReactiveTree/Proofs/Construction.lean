import ReactiveTree.Build
import ReactiveTree.Rehearsal

/-!
When the steps of a build succeed. Each of them is turned into the conditions it checks and the walks
it is made of, so that no later proof opens a walk.
-/

namespace ReactiveTree.Build

variable {H : Host} {α β : Type}

section Steps

theorem bind_eq_ok {walk : Walk α} {next : α → Walk β} {result : β} :
    walk >>= next = .ok result ↔ ∃ part, walk = .ok part ∧ next part = .ok result := by
  cases walk with
  | ok part => simp [bind, Except.bind]
  | error halt => simp [bind, Except.bind]

theorem require_bind_eq_ok {error : BuildError} {part : Option α} {next : α → Walk β} {result : β} :
    require error part >>= next = .ok result ↔
      ∃ found, part = some found ∧ next found = .ok result := by
  cases part with
  | none => simp [require, fail, bind, Except.bind]
  | some found => simp [require, bind, Except.bind]

theorem check_bind_eq_ok {error : BuildError} {holds : Bool} {next : Unit → Walk β} {result : β} :
    check error holds >>= next = .ok result ↔ holds = true ∧ next () = .ok result := by
  cases holds with
  | true => simp [check, bind, Except.bind]
  | false => simp [check, fail, bind, Except.bind]

theorem lift_bind_eq_ok {part : Except BuildError α} {next : α → Walk β} {result : β} :
    lift part >>= next = .ok result ↔ ∃ found, part = .ok found ∧ next found = .ok result := by
  cases part with
  | ok found => simp [lift, bind, Except.bind]
  | error error => simp [lift, fail, bind, Except.bind]

end Steps

/-- The body that a function node stands for, and the names that are open in it. -/
inductive Opens (library : Library) (opened : List String) :
    Option Subtree → Graph → List String → Prop where
  | inline (body : Graph) : Opens library opened (some (.inline body)) body opened
  | named {name : String} {body : Graph} (closed : name ∉ opened)
      (found : library.get? name = some body) :
      Opens library opened (some (.named name)) body (name :: opened)

/-- The nodes of the kinds other than function nodes, each over its children. -/
inductive Shapes (sources : Sources H) (label : Label) (params : Params) :
    NodeKind → List (Tree H) → Tree H → Prop where
  | root (child : Tree H) : Shapes sources label params .root [child] (.relay .root label child)
  | inverse (child : Tree H) :
      Shapes sources label params .inverseDecorator [child] (.relay .inverse label child)
  | repeater (child : Tree H) :
      Shapes sources label params .repeater [child] (.repeater label child)
  | loop (child : Tree H) : Shapes sources label params .loop [child]
      (.loop label (period params sources.tuning.loopPeriodMs) child)
  | gate (child : Tree H) {mode : PollMode} {unit : H.Condition}
      (polled : pollMode label.key params = .ok mode)
      (bound : conditionUnit sources.registry label.key params = .ok unit) :
      Shapes sources label params .loopConditionNode [child]
        (.gate label unit mode (period params sources.tuning.pollPeriodMs) child)
  | selector (children : List (Tree H)) :
      Shapes sources label params .selector children (.ordered .selector label (.ofList children))
  | sequencer (children : List (Tree H)) :
      Shapes sources label params .sequencer children (.ordered .sequencer label (.ofList children))
  | weighted {children : List (Tree H)} {bounds : List Single}
      (weighed : Weights.bounds params.weights children.length = .ok bounds) :
      Shapes sources label params .weightedRandomSelector children
        (.weighted label bounds (.ofList children))
  | parallel (main background : Tree H) :
      Shapes sources label params .simpleParallel [main, background]
        (.parallel label main background)
  | condition {unit : H.Condition}
      (bound : conditionUnit sources.registry label.key params = .ok unit) :
      Shapes sources label params .conditionNode [] (.condition label unit)
  | action {unit : H.Action} (bound : actionUnit sources.registry label.key params = .ok unit) :
      Shapes sources label params .actionNode [] (.action label unit)

theorem shape_eq_ok {sources : Sources H} {kind : NodeKind} {label : Label} {params : Params}
    {children : List (Tree H)} {tree : Tree H} :
    shape sources kind label params children = .ok tree ↔
      Shapes sources label params kind children tree := by
  constructor
  · intro shaped
    unfold shape at shaped
    split at shaped
    case h_5 child =>
      cases polled : pollMode label.key params <;> rw [polled] at shaped
      case error => cases shaped
      cases bound : conditionUnit sources.registry label.key params <;> rw [bound] at shaped
      case error => cases shaped
      cases shaped
      exact .gate child polled bound
    case h_8 =>
      split at shaped
      · rename_i bounds weighed
        cases shaped
        exact .weighted weighed
      · cases shaped
    case h_10 =>
      cases bound : conditionUnit sources.registry label.key params <;> rw [bound] at shaped
      case error => cases shaped
      cases shaped
      exact .condition bound
    case h_11 =>
      cases bound : actionUnit sources.registry label.key params <;> rw [bound] at shaped
      case error => cases shaped
      cases shaped
      exact .action bound
    case h_12 => cases shaped
    -- the other kinds check nothing but the number of their children
    all_goals
      cases shaped
      constructor
  · rintro (_ | _ | _ | _ | ⟨child, polled, bound⟩ | _ | _ | ⟨weighed⟩ | _ | ⟨bound⟩ | ⟨bound⟩)
    case gate => simp only [shape, polled, bound, bind, Except.bind]
    case weighted => simp only [shape, weighed]
    case condition => simp only [shape, bound, bind, Except.bind]
    case action => simp only [shape, bound, bind, Except.bind]
    all_goals rfl

variable {build : Descriptor → Progress → Walk (Tree H × Progress)} {graph : Graph}

theorem buildEach_cons_eq_ok {parent id : String} {ids : List String} {progress after : Progress}
    {trees : List (Tree H)} :
    buildEach build graph parent (id :: ids) progress = .ok (trees, after) ↔
      ∃ node tree middle rest, graph.find? id = some node ∧
        build node progress = .ok (tree, middle) ∧
        buildEach build graph parent ids middle = .ok (rest, after) ∧ trees = tree :: rest := by
  rw [buildEach, require_bind_eq_ok]
  simp only [bind_eq_ok, Prod.exists, Except.ok.injEq, Prod.mk.injEq]
  constructor
  · rintro ⟨node, found, tree, middle, built, rest, _, later, rfl, rfl⟩
    exact ⟨node, tree, middle, rest, found, built, later, rfl⟩
  · rintro ⟨node, tree, middle, rest, found, built, later, rfl⟩
    exact ⟨node, found, tree, middle, built, rest, after, later, rfl, rfl⟩

theorem buildEach_childless {parent : String} {ids : List String} {progress after : Progress}
    {trees : List (Tree H)} (childless : ids.length = 0)
    (built : buildEach build graph parent ids progress = .ok (trees, after)) :
    trees = [] ∧ after = progress := by
  cases List.length_eq_zero_iff.mp childless
  cases built
  exact ⟨rfl, rfl⟩

theorem isEmpty_of_root {root : Descriptor} (rooted : graph.root? = some root) :
    graph.isEmpty = false := by
  have member := List.mem_of_find?_eq_some rooted
  cases nodes : graph.nodes with
  | nil => simp [nodes] at member
  | cons first rest => simp [Graph.isEmpty, nodes]

theorem buildBody_eq_ok {scope : String} {progress after : Progress} {tree : Tree H} :
    buildBody build graph scope progress = .ok (tree, after) ↔
      ∃ root id child board inner, graph.root? = some root ∧
        declareAll progress.blackboard graph.declarations = .ok board ∧
        root.children = [id] ∧ graph.find? id = some child ∧
        build child ⟨progress.next, board, [root.id]⟩ = .ok (tree, inner) ∧
        after = { inner with entered := progress.entered } := by
  rw [buildBody, check_bind_eq_ok, require_bind_eq_ok]
  constructor
  · rintro ⟨_, root, rooted, walked⟩
    obtain ⟨board, declared, walked⟩ := lift_bind_eq_ok.mp walked
    split at walked
    · rename_i id single
      obtain ⟨child, found, walked⟩ := require_bind_eq_ok.mp walked
      obtain ⟨⟨tree', inner⟩, built, made⟩ := bind_eq_ok.mp walked
      cases made
      exact ⟨root, id, child, board, inner, rooted, declared, single, found, built, rfl⟩
    · cases walked
  · rintro ⟨root, id, child, board, inner, rooted, declared, single, found, built, rfl⟩
    have filled : (!graph.isEmpty) = true := by rw [isEmpty_of_root rooted]; rfl
    refine ⟨filled, root, rooted, lift_bind_eq_ok.mpr ⟨board, declared, ?_⟩⟩
    rw [single]
    exact require_bind_eq_ok.mpr ⟨child, found, bind_eq_ok.mpr ⟨(tree, inner), built, rfl⟩⟩

theorem buildNode_eq_ok {sources : Sources H} {depth : Nat} {opened : List String} {scope : String}
    {node : Descriptor} {progress after : Progress} {tree : Tree H} :
    buildNode sources (depth + 1) graph opened scope node progress = .ok (tree, after) ↔
      node.id ∉ progress.entered ∧ ∃ kind children middle,
        NodeKind.parse? node.kind = some kind ∧ kind.childCount.accepts node.children.length ∧
        buildEach (buildNode sources depth graph opened scope) graph (keyIn scope node.id)
          node.children
          { progress with next := progress.next + 1, entered := node.id :: progress.entered } =
          .ok (children, middle) ∧
        (kind ≠ .functionNode ∧ after = middle ∧
            shape sources kind ⟨progress.next, keyIn scope node.id⟩ node.params children =
              .ok tree ∨
          kind = .functionNode ∧ ∃ body names inner,
            Opens sources.library opened node.params.subtree body names ∧
            buildBody (buildNode sources depth body names (keyIn scope node.id)) body
              (keyIn scope node.id) middle = .ok (inner, after) ∧
            tree = .relay .function ⟨progress.next, keyIn scope node.id⟩ inner) := by
  rw [buildNode, check_bind_eq_ok, require_bind_eq_ok]
  simp only [Bool.not_eq_true', List.contains_eq_mem, decide_eq_false_iff_not]
  constructor
  · rintro ⟨fresh, kind, parsed, walked⟩
    obtain ⟨counted, walked⟩ := check_bind_eq_ok.mp walked
    obtain ⟨⟨children, middle⟩, each, made⟩ := bind_eq_ok.mp walked
    refine ⟨fresh, kind, children, middle, parsed, counted, each, ?_⟩
    split at made
    · rename_i function
      refine .inr ⟨function, ?_⟩
      split at made
      · cases made
      · rename_i body written
        obtain ⟨⟨inner, last⟩, built, same⟩ := bind_eq_ok.mp made
        cases same
        exact ⟨body, opened, inner, written ▸ .inline body, built, rfl⟩
      · rename_i name written
        obtain ⟨closed, made⟩ := check_bind_eq_ok.mp made
        obtain ⟨body, found, made⟩ := require_bind_eq_ok.mp made
        obtain ⟨⟨inner, last⟩, built, same⟩ := bind_eq_ok.mp made
        cases same
        have closed : name ∉ opened := by simpa using closed
        exact ⟨body, name :: opened, inner, written ▸ .named closed found, built, rfl⟩
    · rename_i plain
      obtain ⟨tree', shaped, same⟩ := lift_bind_eq_ok.mp made
      cases same
      exact .inl ⟨plain, rfl, shaped⟩
  · rintro ⟨fresh, kind, children, middle, parsed, counted, each, made⟩
    refine ⟨fresh, kind, parsed, check_bind_eq_ok.mpr ⟨counted,
      bind_eq_ok.mpr ⟨(children, middle), each, ?_⟩⟩⟩
    dsimp only
    rcases made with ⟨plain, rfl, shaped⟩ | ⟨rfl, body, names, inner, opens, built, rfl⟩
    · rw [if_neg plain]
      exact lift_bind_eq_ok.mpr ⟨tree, shaped, rfl⟩
    · rw [if_pos rfl]
      -- the cases of `opens` fix the subtree, which has to be a variable for that
      generalize node.params.subtree = subtree at opens
      cases opens with
      | inline => exact bind_eq_ok.mpr ⟨(inner, after), built, rfl⟩
      | @named name _ closed found =>
        have closed : (!decide (name ∈ opened)) = true := by simpa using closed
        exact check_bind_eq_ok.mpr ⟨closed, require_bind_eq_ok.mpr ⟨body, found,
          bind_eq_ok.mpr ⟨(inner, after), built, rfl⟩⟩⟩

section Trees

variable {sources : Sources H} {good : Tree H → Prop}

theorem buildEach_good
    (each : ∀ node progress tree after, build node progress = .ok (tree, after) → good tree)
    {parent : String} {ids : List String} {progress after : Progress} {trees : List (Tree H)}
    (built : buildEach build graph parent ids progress = .ok (trees, after)) :
    ∀ tree ∈ trees, good tree := by
  induction ids generalizing progress trees with
  | nil =>
    cases built
    nofun
  | cons id ids ih =>
    obtain ⟨node, tree, middle, rest, _, first, later, rfl⟩ := buildEach_cons_eq_ok.mp built
    exact List.forall_mem_cons.mpr ⟨each node progress tree middle first, ih later⟩

/-- What holds of each shape over good children, and of a function node over a good body, holds of
every tree that a walk makes. -/
theorem buildNode_good
    (shapes : ∀ label params kind children tree, Shapes sources label params kind children tree →
      (∀ child ∈ children, good child) → good tree)
    (function : ∀ label child, good child → good (.relay .function label child)) (depth : Nat)
    (graph : Graph) (opened : List String) (scope : String) :
    ∀ node progress tree after,
      buildNode sources depth graph opened scope node progress = .ok (tree, after) → good tree := by
  induction depth generalizing graph opened scope with
  | zero =>
    intro node progress tree after built
    cases built
  | succ depth ih =>
    intro node progress tree after built
    obtain ⟨_, kind, children, middle, _, _, each, made⟩ := buildNode_eq_ok.mp built
    have below := buildEach_good (ih graph opened scope) each
    rcases made with ⟨_, rfl, shaped⟩ | ⟨rfl, body, names, inner, _, walked, rfl⟩
    · exact shapes _ _ kind children tree (shape_eq_ok.mp shaped) below
    · obtain ⟨_, _, _, _, _, _, _, _, _, walked, _⟩ := buildBody_eq_ok.mp walked
      exact function _ inner (ih body names _ _ _ inner _ walked)

theorem build_good
    (shapes : ∀ label params kind children tree, Shapes sources label params kind children tree →
      (∀ child ∈ children, good child) → good tree)
    (function : ∀ label child, good child → good (.relay .function label child)) {built : Built H}
    (ok : ReactiveTree.build sources graph = .ok built) : good built.tree := by
  obtain ⟨root, tree, progress, _, walked, rfl⟩ := build_eq_ok.mp ok
  obtain ⟨_, _, _, _, _, _, _, _, _, walked, _⟩ := buildBody_eq_ok.mp walked
  have below := buildNode_good shapes function _ _ _ _ _ _ _ _ walked
  exact shapes _ {} _ _ _ (.root tree) (List.forall_mem_singleton.mpr below)

end Trees

end ReactiveTree.Build

namespace ReactiveTree

def rehearsed : Build.Sources Rehearsal := { registry := Rehearsal.registry }

theorem exists_built {H : Host} {sources : Build.Sources H} {graph : Graph}
    (ok : (build sources graph).isOk) : ∃ built, build sources graph = .ok built := by
  cases made : build sources graph with
  | ok built => exact ⟨built, rfl⟩
  | error _ =>
    rw [made] at ok
    cases ok

theorem restless_builds : ∃ built, build rehearsed Rehearsal.restless = .ok built :=
  exists_built (by decide +kernel)

end ReactiveTree
