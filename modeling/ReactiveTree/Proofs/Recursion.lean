import ReactiveTree.Proofs.WellFormed

/-!
The walk as a recursion without a bound on its depth. An arrival at a node leads to the arrivals at
its children and, at a function node, to the first one in its body. No path of arrivals goes on for
ever: below a node fewer descriptors of the body are left to enter, and a body lies inside the graph
that it was entered from or is a graph of the library that was not open there. So one function, and
no other, is what the recursion says, and bounds on the depth are no part of its meaning.
-/

namespace ReactiveTree

namespace Build

variable {H : Host} {α β : Type}

/-- The walk comes to a node of a body, with the progress made up to there. -/
structure Arrival where
  body : Body
  scope : String
  node : Descriptor
  progress : Progress

namespace Arrival

def key (arrival : Arrival) : String := keyIn arrival.scope arrival.node.id

def entered (arrival : Arrival) : Progress :=
  { arrival.progress with
    next := arrival.progress.next + 1
    entered := arrival.node.id :: arrival.progress.entered }

def room (library : Library) (arrival : Arrival) : Nat :=
  Build.room library arrival.body.graph arrival.body.opened arrival.progress.entered

end Arrival

/-- What is made of the nodes of a body, if `build` says what is made of each arrival. -/
def within (build : Arrival → Walk (Tree H × Progress)) (body : Body) (scope : String)
    (node : Descriptor) (progress : Progress) : Walk (Tree H × Progress) :=
  build ⟨body, scope, node, progress⟩

/-- One level of the walk, where `build` says what is made of the arrivals it leads to. -/
def buildLevel (sources : Sources H) (build : Arrival → Walk (Tree H × Progress))
    (arrival : Arrival) : Walk (Tree H × Progress) := do
  let node := arrival.node
  let key := arrival.key
  check (.sharedChild key) (!arrival.progress.entered.contains node.id)
  let kind ← require (.unknownNodeKind key node.kind) (NodeKind.parse? node.kind)
  check (.childCount key kind node.children.length) (kind.childCount.accepts node.children.length)
  let label : Label := ⟨arrival.progress.next, key⟩
  let (children, progress) ← buildEach (within build arrival.body arrival.scope)
    arrival.body.graph key node.children arrival.entered
  if kind = .functionNode then
    match node.params.subtree with
    | none => fail (.missingParameter key "subtree")
    | some (.inline graph) =>
      let inner : Body := ⟨graph, arrival.body.opened⟩
      let (tree, progress) ← buildBody (within build inner key) graph key progress
      .ok (.relay .function label tree, progress)
    | some (.named name) =>
      check (.recursiveSubtree name) (!arrival.body.opened.contains name)
      let graph ← require (.unknownSubtree key name) (sources.library.get? name)
      let inner : Body := ⟨graph, name :: arrival.body.opened⟩
      let (tree, progress) ← buildBody (within build inner key) graph key progress
      .ok (.relay .function label tree, progress)
  else
    let tree ← lift (shape sources kind label node.params children)
    .ok (tree, progress)

def buildWithin (sources : Sources H) (depth : Nat) (arrival : Arrival) :
    Walk (Tree H × Progress) :=
  buildNode sources depth arrival.body.graph arrival.body.opened arrival.scope arrival.node
    arrival.progress

theorem buildWithin_succ (sources : Sources H) (depth : Nat) (arrival : Arrival) :
    buildWithin sources (depth + 1) arrival =
      buildLevel sources (buildWithin sources depth) arrival := rfl

inductive Begins (body : Body) (scope : String) (progress : Progress) : Arrival → Prop where
  | first {root child : Descriptor} {id : String} {board : Blackboard}
      (rooted : body.graph.root? = some root)
      (declared : declareAll progress.blackboard body.graph.declarations = .ok board)
      (single : root.children = [id]) (found : body.graph.find? id = some child) :
      Begins body scope progress ⟨body, scope, child, ⟨progress.next, board, [root.id]⟩⟩

/-- The node is entered: it was not before, and its kind is known and takes its children. -/
structure Admits (arrival : Arrival) (kind : NodeKind) : Prop where
  absent : arrival.node.id ∉ arrival.progress.entered
  parsed : NodeKind.parse? arrival.node.kind = some kind
  counted : kind.childCount.accepts arrival.node.children.length

/-- One arrival leads to another one: at a child, when the siblings before it are built, or at the
first node in the body of a function node. -/
inductive Leads (sources : Sources H) (build : Arrival → Walk (Tree H × Progress))
    (arrival : Arrival) : Arrival → Prop where
  | child {kind : NodeKind} {before after : List String} {id : String} {node : Descriptor}
      {trees : List (Tree H)} {middle : Progress} (admits : Admits arrival kind)
      (listed : arrival.node.children = before ++ id :: after)
      (beside : buildEach (within build arrival.body arrival.scope) arrival.body.graph arrival.key
        before arrival.entered = .ok (trees, middle))
      (found : arrival.body.graph.find? id = some node) :
      Leads sources build arrival ⟨arrival.body, arrival.scope, node, middle⟩
  | body {inner : Body} {trees : List (Tree H)} {middle : Progress} {first : Arrival}
      (admits : Admits arrival .functionNode)
      (beside : buildEach (within build arrival.body arrival.scope) arrival.body.graph arrival.key
        arrival.node.children arrival.entered = .ok (trees, middle))
      (opens : Opens sources.library arrival.body.opened arrival.node.params.subtree inner.graph
        inner.opened)
      (begins : Begins inner arrival.key middle first) : Leads sources build arrival first

/-! ### What a level looks at -/

section Levels

variable {sources : Sources H} {build build' : Arrival → Walk (Tree H × Progress)}

theorem bind_congr_ok {walk : Walk α} {next next' : α → Walk β}
    (same : ∀ part, walk = .ok part → next' part = next part) :
    walk >>= next' = walk >>= next := by
  cases walk with
  | ok part => exact same part rfl
  | error halt => rfl

theorem require_bind_congr {error : BuildError} {part : Option α} {next next' : α → Walk β}
    (same : ∀ found, part = some found → next' found = next found) :
    require error part >>= next' = require error part >>= next := by
  cases part with
  | none => rfl
  | some found => exact same found rfl

theorem check_bind_congr {error : BuildError} {holds : Bool} {next next' : Unit → Walk β}
    (same : holds = true → next' () = next ()) :
    check error holds >>= next' = check error holds >>= next := by
  cases holds with
  | true => exact same rfl
  | false => rfl

theorem buildEach_congr {build build' : Descriptor → Progress → Walk (Tree H × Progress)}
    {graph graph' : Graph} {parent : String} {ids : List String} {progress : Progress}
    (lookup : ∀ id ∈ ids, graph'.find? id = graph.find? id)
    (same : ∀ before id after node trees middle, ids = before ++ id :: after →
      graph.find? id = some node →
      buildEach build graph parent before progress = .ok (trees, middle) →
      build' node middle = build node middle) :
    buildEach build' graph' parent ids progress = buildEach build graph parent ids progress := by
  induction ids generalizing progress with
  | nil => rfl
  | cons id ids ih =>
    obtain ⟨here, there⟩ := List.forall_mem_cons.mp lookup
    rw [buildEach, buildEach, here]
    apply require_bind_congr
    intro node found
    rw [same [] id ids node [] progress rfl found rfl]
    apply bind_congr_ok
    rintro ⟨tree, middle⟩ built
    have later : buildEach build' graph' parent ids middle =
        buildEach build graph parent ids middle := by
      apply ih there
      intro before id' after node' trees last split found' beside
      apply same (id :: before) id' after node' (tree :: trees) last
      · rw [split, List.cons_append]
      · exact found'
      · exact buildEach_cons_eq_ok.mpr ⟨node, tree, middle, trees, found, built, beside, rfl⟩
    dsimp only
    rw [later]

theorem buildBody_congr {body : Body} {scope : String} {progress : Progress}
    (same : ∀ first, Begins body scope progress first → build' first = build first) :
    buildBody (within build' body scope) body.graph scope progress =
      buildBody (within build body scope) body.graph scope progress := by
  rw [buildBody, buildBody]
  apply check_bind_congr
  intro _
  apply require_bind_congr
  intro root rooted
  cases declared : declareAll progress.blackboard body.graph.declarations with
  | error _ => rfl
  | ok board =>
    apply bind_congr_ok
    rintro _ ⟨⟩
    dsimp only
    split
    · rename_i id single
      apply require_bind_congr
      intro child found
      have begins : Begins body scope progress _ := .first rooted declared single found
      rw [within, within, same _ begins]
    · rfl

theorem buildLevel_congr {arrival : Arrival}
    (same : ∀ next, Leads sources build arrival next → build' next = build next) :
    buildLevel sources build' arrival = buildLevel sources build arrival := by
  unfold buildLevel
  dsimp only
  apply check_bind_congr
  intro absent
  have absent : arrival.node.id ∉ arrival.progress.entered := by simpa using absent
  apply require_bind_congr
  intro kind parsed
  apply check_bind_congr
  intro counted
  have admits : Admits arrival kind := ⟨absent, parsed, counted⟩
  have children : buildEach (within build' arrival.body arrival.scope) arrival.body.graph
        arrival.key arrival.node.children arrival.entered =
      buildEach (within build arrival.body arrival.scope) arrival.body.graph arrival.key
        arrival.node.children arrival.entered :=
    buildEach_congr (fun _ _ => rfl) fun before id after child trees middle listed found beside =>
      same _ (.child admits listed beside found)
  rw [children]
  apply bind_congr_ok
  rintro ⟨trees, middle⟩ beside
  dsimp only
  split
  · rename_i function
    subst function
    have body (inner : Body)
        (opens : Opens sources.library arrival.body.opened arrival.node.params.subtree inner.graph
          inner.opened) :
        buildBody (within build' inner arrival.key) inner.graph arrival.key middle =
          buildBody (within build inner arrival.key) inner.graph arrival.key middle :=
      buildBody_congr fun first begins => same first (.body admits beside opens begins)
    split
    · rfl
    · rename_i graph written
      rw [body ⟨graph, arrival.body.opened⟩ (written ▸ .inline graph)]
    · rename_i name written
      apply check_bind_congr
      intro closed
      apply require_bind_congr
      intro graph found
      have closed : name ∉ arrival.body.opened := by simpa using closed
      rw [body ⟨graph, name :: arrival.body.opened⟩ (written ▸ .named closed found)]
  · rfl

end Levels

/-! ### Ids that were entered -/

/-- More ids were entered in a body, and none for a second time. -/
structure Logs (before after : List String) : Prop where
  grows : before <:+ after
  distinct : before.Nodup → after.Nodup

theorem Logs.refl (ids : List String) : Logs ids ids := ⟨List.suffix_rfl, id⟩

theorem Logs.trans {before middle after : List String} (first : Logs before middle)
    (rest : Logs middle after) : Logs before after :=
  ⟨first.grows.trans rest.grows, fun distinct => rest.distinct (first.distinct distinct)⟩

theorem Logs.cons {id : String} {ids : List String} (absent : id ∉ ids) : Logs ids (id :: ids) :=
  ⟨List.suffix_cons id ids, fun distinct => List.nodup_cons.mpr ⟨absent, distinct⟩⟩

theorem buildEach_logs {build : Descriptor → Progress → Walk (Tree H × Progress)}
    (logs : ∀ node progress tree after, build node progress = .ok (tree, after) →
      Logs progress.entered after.entered)
    {graph : Graph} {parent : String} {ids : List String} {progress after : Progress}
    {trees : List (Tree H)}
    (built : buildEach build graph parent ids progress = .ok (trees, after)) :
    Logs progress.entered after.entered := by
  induction ids generalizing progress trees with
  | nil =>
    cases built
    exact .refl _
  | cons id ids ih =>
    obtain ⟨node, tree, middle, rest, _, first, later, rfl⟩ := buildEach_cons_eq_ok.mp built
    exact (logs node progress tree middle first).trans (ih later)

def KeepsLog (build : Arrival → Walk (Tree H × Progress)) : Prop :=
  ∀ arrival tree after, build arrival = .ok (tree, after) →
    Logs arrival.progress.entered after.entered

section Logs

variable {sources : Sources H} {build : Arrival → Walk (Tree H × Progress)}

theorem KeepsLog.each (keeps : KeepsLog build) (body : Body) {scope parent : String}
    {ids : List String} {progress after : Progress} {trees : List (Tree H)}
    (built : buildEach (within build body scope) body.graph parent ids progress =
      .ok (trees, after)) :
    Logs progress.entered after.entered :=
  buildEach_logs
    (fun node progress tree after made => keeps ⟨body, scope, node, progress⟩ tree after made) built

theorem buildWithin_keepsLog (sources : Sources H) (depth : Nat) :
    KeepsLog (buildWithin sources depth) := by
  induction depth with
  | zero =>
    intro arrival tree after built
    cases built
  | succ depth ih =>
    intro arrival tree after built
    obtain ⟨absent, kind, children, middle, _, _, each, made⟩ := buildNode_eq_ok.mp built
    have below : Logs arrival.progress.entered middle.entered :=
      (Logs.cons absent).trans (ih.each arrival.body each)
    rcases made with ⟨_, rfl, _⟩ | ⟨_, body, names, inner, _, walked, _⟩
    · exact below
    · -- a body comes back with what was entered around it
      obtain ⟨_, _, _, _, _, _, _, _, _, _, rfl⟩ := buildBody_eq_ok.mp walked
      exact below

end Logs

/-! ### Room -/

section Room

variable {sources : Sources H} {build : Arrival → Walk (Tree H × Progress)}
  {arrival next : Arrival}

theorem Begins.member {body : Body} {scope : String} {progress : Progress}
    (begins : Begins body scope progress arrival) : arrival.node ∈ arrival.body.graph.nodes := by
  cases begins with
  | first _ _ _ found => exact List.mem_of_find?_eq_some found

theorem Leads.member (leads : Leads sources build arrival next) :
    next.node ∈ next.body.graph.nodes := by
  cases leads with
  | child _ _ _ found => exact List.mem_of_find?_eq_some found
  | body _ _ _ begins => exact begins.member

theorem Begins.room_lt {library : Library} {body : Body} {scope : String} {progress : Progress}
    (begins : Begins body scope progress arrival) :
    arrival.room library < body.graph.weight + closedWeight library body.opened := by
  cases begins with
  | @first root _ _ _ rooted =>
    have less : fresh body.graph.nodes [root.id] < fresh body.graph.nodes [] :=
      fresh_lt (List.mem_of_find?_eq_some rooted) List.not_mem_nil
    have all := fresh_le_length body.graph.nodes []
    rw [weight_eq]
    unfold Arrival.room room
    dsimp only
    omega

theorem Opens.weight_le {library : Library} {opened names : List String} {params : Params}
    {graph : Graph} (opens : Opens library opened params.subtree graph names) :
    graph.weight + closedWeight library names ≤ params.weight + closedWeight library opened := by
  obtain ⟨_, _, _, _, _, _, subtree⟩ := params
  cases opens with
  | inline => exact Nat.le_refl _
  | named closed found =>
    have := closed_lt closed found
    omega

/-- Below a node there is less room, but for its own body if it belongs to no graph. -/
theorem Leads.room_cases (keeps : KeepsLog build) (leads : Leads sources build arrival next) :
    next.body = arrival.body ∧ arrival.node.id ∉ arrival.progress.entered ∧
        arrival.node.id :: arrival.progress.entered ⊆ next.progress.entered ∨
      next.room sources.library <
        arrival.node.params.weight + closedWeight sources.library arrival.body.opened := by
  cases leads with
  | child admits _ beside _ =>
    exact .inl ⟨rfl, admits.absent, (keeps.each arrival.body beside).grows.subset⟩
  | body _ _ opens begins =>
    exact .inr (Nat.lt_of_lt_of_le begins.room_lt opens.weight_le)

theorem Leads.room_lt (keeps : KeepsLog build) (leads : Leads sources build arrival next)
    (member : arrival.node ∈ arrival.body.graph.nodes) :
    next.room sources.library < arrival.room sources.library := by
  have inner := inner_le member
  rcases leads.room_cases keeps with ⟨same, absent, grown⟩ | less
  · have fewer : fresh arrival.body.graph.nodes next.progress.entered ≤
        fresh arrival.body.graph.nodes (arrival.node.id :: arrival.progress.entered) :=
      fresh_le grown
    have fewest := fresh_lt member absent
    unfold Arrival.room room
    rw [same]
    omega
  · unfold Arrival.room room at less ⊢
    omega

theorem Leads.room_lt_levels (keeps : KeepsLog build) (leads : Leads sources build arrival next) :
    next.room sources.library < arrival.room sources.library + arrival.node.params.weight + 1 := by
  rcases leads.room_cases keeps with ⟨same, _, grown⟩ | less
  · have fewer : fresh arrival.body.graph.nodes next.progress.entered ≤
        fresh arrival.body.graph.nodes arrival.progress.entered :=
      fresh_le (List.cons_subset.mp grown).2
    unfold Arrival.room room
    rw [same]
    omega
  · unfold Arrival.room room at less ⊢
    omega

end Room

/-! ### The whole walk -/

/-- Levels beyond the room play no part. -/
theorem buildWithin_eq {sources : Sources H} {depth depth' : Nat} {arrival : Arrival}
    (member : arrival.node ∈ arrival.body.graph.nodes)
    (deep : arrival.room sources.library < depth) (deep' : arrival.room sources.library < depth') :
    buildWithin sources depth arrival = buildWithin sources depth' arrival := by
  induction depth generalizing depth' arrival with
  | zero => omega
  | succ depth ih =>
    obtain ⟨depth', rfl⟩ := Nat.exists_eq_add_one_of_ne_zero (Nat.ne_zero_of_lt deep')
    rw [buildWithin_succ, buildWithin_succ]
    apply buildLevel_congr
    intro next leads
    have less := leads.room_lt (buildWithin_keepsLog sources depth') member
    apply ih leads.member <;> omega

/-- What the walk makes of an arrival, with all the levels it needs. -/
def expand (sources : Sources H) (arrival : Arrival) : Walk (Tree H × Progress) :=
  buildWithin sources (arrival.room sources.library + arrival.node.params.weight + 2) arrival

variable (sources : Sources H)

theorem expand_keepsLog : KeepsLog (expand sources) :=
  fun arrival => buildWithin_keepsLog sources _ arrival

theorem buildWithin_eq_expand {depth : Nat} {arrival : Arrival}
    (member : arrival.node ∈ arrival.body.graph.nodes)
    (deep : arrival.room sources.library < depth) :
    buildWithin sources depth arrival = expand sources arrival :=
  buildWithin_eq member deep (by omega)

theorem expand_eq : expand sources = buildLevel sources (expand sources) := by
  funext arrival
  rw [expand, buildWithin_succ]
  apply Eq.symm
  apply buildLevel_congr
  intro next leads
  have less := leads.room_lt_levels (buildWithin_keepsLog sources _)
  exact (buildWithin_eq_expand sources leads.member less).symm

theorem leads_wellFounded :
    WellFounded fun next arrival => Leads sources (expand sources) arrival next := by
  -- a node that belongs to no graph is not bounded by the room, but what it leads to is
  have inside (room : Nat) : ∀ arrival : Arrival, arrival.room sources.library = room →
      arrival.node ∈ arrival.body.graph.nodes →
      Acc (fun next arrival => Leads sources (expand sources) arrival next) arrival := by
    induction room using Nat.strongRecOn with
    | ind room ih =>
      rintro arrival rfl member
      constructor
      intro next leads
      exact ih _ (leads.room_lt (expand_keepsLog sources) member) next rfl leads.member
  constructor
  intro arrival
  constructor
  intro next leads
  exact inside _ next rfl leads.member

/-- Whatever does what the recursion says is the whole walk. -/
theorem expand_unique {build : Arrival → Walk (Tree H × Progress)}
    (solves : build = buildLevel sources build) : build = expand sources := by
  funext arrival
  induction arrival using (leads_wellFounded sources).induction with
  | _ arrival ih =>
    calc build arrival
      _ = buildLevel sources build arrival := congrFun solves arrival
      _ = buildLevel sources (expand sources) arrival := buildLevel_congr ih
      _ = expand sources arrival := (congrFun (expand_eq sources) arrival).symm

theorem buildBody_eq_expand {graph : Graph} {depth : Nat}
    (deep : levels sources.library graph ≤ depth) :
    buildBody (buildNode sources depth graph [] "") graph "" ⟨1, {}, []⟩ =
      buildBody (within (expand sources) ⟨graph, []⟩ "") graph "" ⟨1, {}, []⟩ := by
  have enough (first : Arrival) (begins : Begins ⟨graph, []⟩ "" ⟨1, {}, []⟩ first) :
      buildWithin sources depth first = expand sources first := by
    have less : first.room sources.library < levels sources.library graph :=
      Nat.lt_succ_of_lt begins.room_lt
    exact buildWithin_eq_expand sources begins.member (Nat.lt_of_lt_of_le less deep)
  exact buildBody_congr enough

theorem walk_eq (graph : Graph) :
    walk sources graph = buildBody (within (expand sources) ⟨graph, []⟩ "") graph "" ⟨1, {}, []⟩ :=
  buildBody_eq_expand sources (Nat.le_refl _)

inductive Comes (sources : Sources H) (graph : Graph) : Arrival → Prop where
  | first {arrival : Arrival} (begins : Begins ⟨graph, []⟩ "" ⟨1, {}, []⟩ arrival) :
      Comes sources graph arrival
  | next {arrival next : Arrival} (comes : Comes sources graph arrival)
      (leads : Leads sources (expand sources) arrival next) : Comes sources graph next

variable {sources}

theorem Begins.distinct {body : Body} {scope : String} {progress : Progress} {arrival : Arrival}
    (begins : Begins body scope progress arrival) :
    arrival.body = body ∧ arrival.progress.entered.Nodup := by
  cases begins
  exact ⟨rfl, List.pairwise_singleton _ _⟩

theorem Opens.distinct {library : Library} {opened names : List String} {subtree : Option Subtree}
    {graph : Graph} (opens : Opens library opened subtree graph names) (distinct : opened.Nodup) :
    names.Nodup := by
  cases opens with
  | inline => exact distinct
  | named closed _ => exact List.nodup_cons.mpr ⟨closed, distinct⟩

/-- No id is entered twice in a body, and no name is open twice. -/
theorem Comes.distinct {graph : Graph} {arrival : Arrival} (comes : Comes sources graph arrival) :
    arrival.progress.entered.Nodup ∧ arrival.body.opened.Nodup := by
  induction comes with
  | first begins =>
    obtain ⟨same, distinct⟩ := begins.distinct
    exact ⟨distinct, same ▸ List.nodup_nil⟩
  | next _ leads ih =>
    cases leads with
    | child admits _ beside _ =>
      have logs := (Logs.cons admits.absent).trans ((expand_keepsLog sources).each _ beside)
      exact ⟨logs.distinct ih.1, ih.2⟩
    | body _ _ opens begins =>
      obtain ⟨same, distinct⟩ := begins.distinct
      exact ⟨distinct, same ▸ opens.distinct ih.2⟩

/-- On the way down the log of a body only grows, and the body of a function node has one of its
own. -/
inductive Follows (library : Library) (arrival next : Arrival) : Prop where
  | beside (same : next.body = arrival.body)
      (logged : arrival.node.id :: arrival.progress.entered <:+ next.progress.entered)
  | inside {root : Descriptor}
      (opens : Opens library arrival.body.opened arrival.node.params.subtree next.body.graph
        next.body.opened)
      (rooted : next.body.graph.root? = some root) (logged : next.progress.entered = [root.id])

theorem Leads.follows {arrival next : Arrival}
    (leads : Leads sources (expand sources) arrival next) :
    Follows sources.library arrival next := by
  cases leads with
  | child _ _ beside _ => exact .beside rfl ((expand_keepsLog sources).each _ beside).grows
  | body _ _ opens begins =>
    cases begins with
    | first rooted => exact .inside opens rooted rfl

/-- Every build ends. Each way down comes to an end, so that the recursion determines what is made,
and gives a tree or an error; on no way is an id entered twice in a body or a name opened twice. -/
theorem build_terminates (sources : Sources H) (graph : Graph) :
    (∀ build, build = buildLevel sources build ↔ build = expand sources) ∧
    WellFounded (fun next arrival => Leads sources (expand sources) arrival next) ∧
    (∀ arrival, Comes sources graph arrival →
      arrival.progress.entered.Nodup ∧ arrival.body.opened.Nodup ∧
      ∀ next, Leads sources (expand sources) arrival next →
        Follows sources.library arrival next) ∧
    walk sources graph = buildBody (within (expand sources) ⟨graph, []⟩ "") graph "" ⟨1, {}, []⟩ ∧
    ((∃ made, walk sources graph = .ok made) ∨
      ∃ error, walk sources graph = .error (.error error)) := by
  refine ⟨?_, leads_wellFounded sources, ?_, walk_eq sources graph, ?_⟩
  · intro build
    constructor
    · exact expand_unique sources
    · rintro rfl
      exact expand_eq sources
  · intro arrival comes
    obtain ⟨entered, opened⟩ := comes.distinct
    exact ⟨entered, opened, fun next leads => leads.follows⟩
  · match made : walk sources graph with
    | .ok part => exact .inl ⟨part, rfl⟩
    | .error (.error error) => exact .inr ⟨error, rfl⟩
    | .error .tooDeep => exact (walk_ne_tooDeep sources graph made).elim

end Build

namespace Rehearsal

def ring : Graph where
  nodes := [
    { kind := "Root", id := "root", children := ["left"], params := {} },
    { kind := "InverseDecorator", id := "left", children := ["right"], params := {} },
    { kind := "InverseDecorator", id := "right", children := ["left"], params := {} }]

example : (build rehearsed ring).isOk = false := by decide +kernel

def visiting (name : String) : Graph where
  nodes := [
    { kind := "Root", id := "root", children := ["visit"], params := {} },
    { kind := "FunctionNode", id := "visit", params := { subtree := some (.named name) } }]

/-- Two graphs of a library that name each other. -/
example :
    let library : Library := ⟨[("here", visiting "there"), ("there", visiting "here")]⟩
    (build { rehearsed with library } (visiting "here")).isOk = false := by decide +kernel

end Rehearsal

end ReactiveTree
