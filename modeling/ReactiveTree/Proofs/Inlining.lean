import Mathlib.Data.List.Forall2
import ReactiveTree.Proofs.Completeness

/-!
A name and the graph it stands for. Where a node names a graph of the library, the graph itself may
be written in its place: the build succeeds as before, and with the same tree and variables. What
changes is which names are open, so that a library graph that comes back to itself is found out one
round later.
-/

namespace ReactiveTree

def Descriptor.withSubtree (node : Descriptor) (subtree : Subtree) : Descriptor :=
  { node with params := { node.params with subtree := some subtree } }

namespace Build

variable {H : Host} {sources : Sources H} {library : Library}

/-- In one node of the graph, or of a graph written inside it, a name of the library is replaced by
the graph it stands for. -/
inductive Inlined (library : Library) : Graph → Graph → Prop where
  | here {declarations : List Declaration} {before after : List Descriptor} {node : Descriptor}
      {name : String} {body : Graph} (written : node.params.subtree = some (.named name))
      (found : library.get? name = some body) :
      Inlined library ⟨declarations, before ++ node :: after⟩
        ⟨declarations, before ++ node.withSubtree (.inline body) :: after⟩
  | within {declarations : List Declaration} {before after : List Descriptor} {node : Descriptor}
      {inner inner' : Graph} (written : node.params.subtree = some (.inline inner))
      (inlined : Inlined library inner inner') :
      Inlined library ⟨declarations, before ++ node :: after⟩
        ⟨declarations, before ++ node.withSubtree (.inline inner') :: after⟩

inductive Rewritten (library : Library) : Option Subtree → Option Subtree → Prop where
  | same (subtree : Option Subtree) : Rewritten library subtree subtree
  | replaced {name : String} {body : Graph} (found : library.get? name = some body) :
      Rewritten library (some (.named name)) (some (.inline body))
  | deeper {inner inner' : Graph} (inlined : Inlined library inner inner') :
      Rewritten library (some (.inline inner)) (some (.inline inner'))

/-- The descriptors differ at most in the way their subtree is written. -/
structure Twin (library : Library) (node node' : Descriptor) : Prop where
  kind : node'.kind = node.kind
  id : node'.id = node.id
  children : node'.children = node.children
  params : node'.params = { node.params with subtree := node'.params.subtree }
  subtree : Rewritten library node.params.subtree node'.params.subtree

theorem Twin.refl (node : Descriptor) : Twin library node node := by
  refine ⟨rfl, rfl, rfl, ?_, .same _⟩
  cases node.params
  rfl

theorem Twin.rewritten {node : Descriptor} {subtree : Subtree}
    (rewritten : Rewritten library node.params.subtree (some subtree)) :
    Twin library node (node.withSubtree subtree) := ⟨rfl, rfl, rfl, rfl, rewritten⟩

structure Twins (library : Library) (graph graph' : Graph) : Prop where
  declarations : graph'.declarations = graph.declarations
  nodes : List.Forall₂ (Twin library) graph.nodes graph'.nodes

theorem Twins.refl (graph : Graph) : Twins library graph graph :=
  ⟨rfl, List.forall₂_same.mpr fun node _ => .refl node⟩

theorem Inlined.twins {graph graph' : Graph} (inlined : Inlined library graph graph') :
    Twins library graph graph' := by
  have around {before after : List Descriptor} {node node' : Descriptor}
      (twin : Twin library node node') :
      List.Forall₂ (Twin library) (before ++ node :: after) (before ++ node' :: after) :=
    List.rel_append (List.forall₂_same.mpr fun node _ => .refl node)
      (.cons twin (List.forall₂_same.mpr fun node _ => .refl node))
  cases inlined with
  | here written found => exact ⟨rfl, around (.rewritten (written ▸ .replaced found))⟩
  | within written inlined => exact ⟨rfl, around (.rewritten (written ▸ .deeper inlined))⟩

section Lookup

variable {graph graph' : Graph}

theorem find?_twins {nodes nodes' : List Descriptor} {picks : Descriptor → Bool}
    (twins : List.Forall₂ (Twin library) nodes nodes')
    (blind : ∀ node node', Twin library node node' → picks node' = picks node) :
    Option.Rel (Twin library) (nodes.find? picks) (nodes'.find? picks) := by
  induction twins with
  | nil => exact .none
  | @cons node node' rest rest' twin _ ih =>
    rw [List.find?_cons, List.find?_cons, blind node node' twin]
    cases picks node with
    | true => exact .some twin
    | false => exact ih

theorem Twins.find? (twins : Twins library graph graph') (id : String) :
    Option.Rel (Twin library) (graph.find? id) (graph'.find? id) :=
  find?_twins twins.nodes fun node node' twin => by rw [twin.id]

theorem Twins.root? (twins : Twins library graph graph') :
    Option.Rel (Twin library) graph.root? graph'.root? :=
  find?_twins twins.nodes fun node node' twin => by rw [twin.kind]

theorem exists_right {part part' : Option Descriptor} {node : Descriptor}
    (related : Option.Rel (Twin library) part part') (there : part = some node) :
    ∃ node', part' = some node' ∧ Twin library node node' := by
  subst there
  cases related with
  | some twin => exact ⟨_, rfl, twin⟩

theorem exists_left {part part' : Option Descriptor} {node' : Descriptor}
    (related : Option.Rel (Twin library) part part') (there : part' = some node') :
    ∃ node, part = some node ∧ Twin library node node' := by
  subst there
  cases related with
  | some twin => exact ⟨_, rfl, twin⟩

end Lookup

/-! ### The walk -/

/-- A body under a name is the same body written out, with fewer names open in it. -/
theorem Opens.rewritten {opened opened' names : List String} {subtree subtree' : Option Subtree}
    {body : Graph} (opens : Opens library opened subtree body names)
    (rewritten : Rewritten library subtree subtree') (fewer : opened' ⊆ opened) :
    ∃ body' names', Opens library opened' subtree' body' names' ∧ Twins library body body' ∧
      names' ⊆ names := by
  cases opens with
  | inline =>
    cases rewritten with
    | same => exact ⟨body, opened', .inline body, .refl body, fewer⟩
    | deeper inlined => exact ⟨_, opened', .inline _, Inlined.twins inlined, fewer⟩
  | @named name _ closed found =>
    cases rewritten with
    | same =>
      have closed' : name ∉ opened' := fun there => closed (fewer there)
      exact ⟨body, name :: opened', .named closed' found, .refl body, List.cons_subset_cons name fewer⟩
    | replaced found' =>
      obtain rfl := Option.some.inj (found.symm.trans found')
      exact ⟨body, opened', .inline body, .refl body, List.subset_cons_of_subset name fewer⟩

theorem shape_twin {node node' : Descriptor} (twin : Twin library node node') (kind : NodeKind)
    (label : Label) (children : List (Tree H)) :
    shape sources kind label node'.params children = shape sources kind label node.params children := by
  rw [twin.params]
  rfl

def Repeats (library : Library)
    (build build' : Descriptor → Progress → Walk (Tree H × Progress)) : Prop :=
  ∀ node node' progress tree after, Twin library node node' →
    build node progress = .ok (tree, after) → build' node' progress = .ok (tree, after)

section Walks

variable {build build' : Descriptor → Progress → Walk (Tree H × Progress)} {graph graph' : Graph}
  {progress after : Progress}

theorem buildEach_repeats (repeats : Repeats library build build')
    (twins : Twins library graph graph') {parent : String} {ids : List String}
    {trees : List (Tree H)}
    (built : buildEach build graph parent ids progress = .ok (trees, after)) :
    buildEach build' graph' parent ids progress = .ok (trees, after) := by
  induction ids generalizing progress trees with
  | nil => exact built
  | cons id ids ih =>
    obtain ⟨node, tree, middle, rest, found, first, later, rfl⟩ := buildEach_cons_eq_ok.mp built
    obtain ⟨node', found', twin⟩ := exists_right (twins.find? id) found
    have first' := repeats node node' progress tree middle twin first
    exact buildEach_cons_eq_ok.mpr ⟨node', tree, middle, rest, found', first', ih later, rfl⟩

theorem buildBody_repeats (repeats : Repeats library build build')
    (twins : Twins library graph graph') {scope : String} {tree : Tree H}
    (built : buildBody build graph scope progress = .ok (tree, after)) :
    buildBody build' graph' scope progress = .ok (tree, after) := by
  obtain ⟨root, id, child, board, inner, rooted, declared, single, found, walked, rfl⟩ :=
    buildBody_eq_ok.mp built
  obtain ⟨root', rooted', same⟩ := exists_right twins.root? rooted
  obtain ⟨child', found', twin⟩ := exists_right (twins.find? id) found
  have walked' := repeats child child' _ tree inner twin walked
  rw [← twins.declarations] at declared
  rw [← same.children] at single
  rw [← same.id] at walked'
  exact buildBody_eq_ok.mpr
    ⟨root', id, child', board, inner, rooted', declared, single, found', walked', rfl⟩

end Walks

/-- Fewer open names and more levels to enter do not stop a walk. -/
theorem buildNode_repeats {depth depth' : Nat} (deeper : depth ≤ depth') {graph graph' : Graph}
    {opened opened' : List String} (twins : Twins sources.library graph graph')
    (fewer : opened' ⊆ opened) (scope : String) :
    Repeats sources.library (buildNode sources depth graph opened scope)
      (buildNode sources depth' graph' opened' scope) := by
  induction depth generalizing depth' graph graph' opened opened' scope with
  | zero =>
    intro node node' progress tree after _ built
    cases built
  | succ depth ih =>
    intro node node' progress tree after twin built
    obtain ⟨depth', rfl⟩ := Nat.exists_eq_add_of_lt deeper
    have deeper : depth ≤ depth + depth' := Nat.le_add_right depth depth'
    obtain ⟨absent, kind, children, middle, parsed, counted, each, made⟩ := buildNode_eq_ok.mp built
    have each' := buildEach_repeats (ih deeper twins fewer scope) twins each
    rw [buildNode_eq_ok, twin.kind, twin.id, twin.children]
    refine ⟨absent, kind, children, middle, parsed, counted, each', ?_⟩
    rcases made with ⟨plain, same, shaped⟩ | ⟨function, body, names, inner, opens, walked, same⟩
    · exact .inl ⟨plain, same, (shape_twin twin _ _ _).trans shaped⟩
    · obtain ⟨body', names', opens', bodies, below⟩ := opens.rewritten twin.subtree fewer
      have walked' := buildBody_repeats (ih deeper bodies below _) bodies walked
      exact .inr ⟨function, body', names', inner, opens', walked', same⟩

/-! ### The levels -/

theorem innerWeight_append (before after : List Descriptor) :
    innerWeight (before ++ after) = innerWeight before + innerWeight after := by
  induction before with
  | nil => exact (Nat.zero_add _).symm
  | cons node rest ih => rw [List.cons_append, innerWeight, innerWeight, ih, Nat.add_assoc]

theorem weight_of_subtree (params : Params) : params.weight = subtreeWeight params.subtree := by
  cases params
  rfl

theorem Inlined.weight_le {graph graph' : Graph} (inlined : Inlined library graph graph') :
    graph.weight ≤ graph'.weight := by
  have around {before after : List Descriptor} {node node' : Descriptor}
      {declarations : List Declaration}
      (heavier : subtreeWeight node.params.subtree ≤ subtreeWeight node'.params.subtree) :
      Graph.weight ⟨declarations, before ++ node :: after⟩ ≤
        Graph.weight ⟨declarations, before ++ node' :: after⟩ := by
    simp only [weight_eq, innerWeight_append, innerWeight, List.length_append, List.length_cons,
      weight_of_subtree]
    omega
  induction inlined with
  | here written found => exact around (by rw [written]; exact Nat.zero_le _)
  | within written _ ih => exact around (by rw [written]; exact ih)

theorem levels_le {graph graph' : Graph} (inlined : Inlined library graph graph') :
    levels library graph ≤ levels library graph' := by
  have := inlined.weight_le
  unfold levels
  omega

theorem build_of_inlined {graph graph' : Graph} (inlined : Inlined sources.library graph graph')
    {built : Built H} (ok : build sources graph = .ok built) : build sources graph' = .ok built := by
  obtain ⟨root, tree, progress, rooted, walked, rfl⟩ := build_eq_ok.mp ok
  obtain ⟨root', rooted', twin⟩ := exists_right inlined.twins.root? rooted
  have repeats := buildNode_repeats (levels_le inlined) inlined.twins (List.Subset.refl []) ""
  have walked' := buildBody_repeats repeats inlined.twins walked
  rw [← twin.id]
  exact build_eq_ok.mpr ⟨root', tree, progress, rooted', walked', rfl⟩

/-! ### Back to the name -/

section Links

variable {graph graph' : Graph} {id : String}

theorem Twins.reached (twins : Twins library graph graph') (reached : Reached graph id) :
    Reached graph' id := by
  induction reached with
  | root rooted listed =>
    obtain ⟨root', rooted', twin⟩ := exists_right twins.root? rooted
    exact .root rooted' (twin.children ▸ listed)
  | @child parent _ _ _ found listed ih =>
    obtain ⟨node', found', twin⟩ := exists_right (twins.find? parent) found
    exact .child ih found' (twin.children ▸ listed)

theorem Twins.linked (twins : Twins library graph graph') {source : Option String} {position : Nat}
    (linked : Linked graph source position id) : Linked graph' source position id := by
  cases linked with
  | root rooted listed =>
    obtain ⟨root', rooted', twin⟩ := exists_right twins.root? rooted
    exact .root rooted' (twin.children ▸ listed)
  | @child parent _ _ _ reached found listed =>
    obtain ⟨node', found', twin⟩ := exists_right (twins.find? parent) found
    exact .child (twins.reached reached) found' (twin.children ▸ listed)

end Links

theorem Fits.twin {opened opened' : List String} {node node' : Descriptor} {kind : NodeKind}
    (twin : Twin sources.library node node') (fits : Fits sources opened' node' kind)
    (expands : kind = .functionNode →
      ∃ body names, Opens sources.library opened node.params.subtree body names) :
    Fits sources opened node kind := by
  obtain ⟨counted, acts, polls, repeats, chooses, _⟩ := fits
  rw [twin.params] at acts polls repeats chooses
  rw [twin.children] at counted chooses
  exact ⟨counted, acts, polls, repeats, chooses, expands⟩

theorem WellFormedBody.twin {body body' : Body} (twins : Twins sources.library body.graph body'.graph)
    (wellFormed : WellFormedBody sources body')
    (expands : ∀ id node, Reached body.graph id → body.graph.find? id = some node →
      NodeKind.parse? node.kind = some .functionNode →
      ∃ inner names, Opens sources.library body.opened node.params.subtree inner names) :
    WellFormedBody sources body := by
  constructor
  · obtain ⟨root', child, rooted', single⟩ := wellFormed.rooted
    obtain ⟨root, rooted, twin⟩ := exists_left twins.root? rooted'
    exact ⟨root, child, rooted, twin.children ▸ single⟩
  · intro id reached
    obtain ⟨node', found'⟩ := wellFormed.resolves id (twins.reached reached)
    obtain ⟨node, found, _⟩ := exists_left (twins.find? id) found'
    exact ⟨node, found⟩
  · intro id source source' position position' left right
    exact wellFormed.unshared id _ _ _ _ (twins.linked left) (twins.linked right)
  · intro root source position rooted linked
    obtain ⟨root', rooted', twin⟩ := exists_right twins.root? rooted
    exact wellFormed.rootless root' source position rooted' (twin.id.symm ▸ twins.linked linked)
  · intro id node reached found
    obtain ⟨node', found', twin⟩ := exists_right (twins.find? id) found
    obtain ⟨kind, parsed, fits⟩ := wellFormed.fits id node' (twins.reached reached) found'
    rw [twin.kind] at parsed
    refine ⟨kind, parsed, fits.twin twin fun function => ?_⟩
    exact expands id node reached found (function ▸ parsed)
  · exact twins.declarations ▸ wellFormed.declares

def Mentions (graph : Graph) (name : String) : Prop :=
  ∃ id node, Reached graph id ∧ graph.find? id = some node ∧
    NodeKind.parse? node.kind = some .functionNode ∧ node.params.subtree = some (.named name)

/-- A reached function node of the graph stands for the inner one, whatever is open. -/
def Calls (library : Library) (graph inner : Graph) : Prop :=
  ∃ names, Enters library ⟨graph, []⟩ ⟨inner, names⟩

/-- Nothing that the graph comes to by function nodes mentions the name. -/
def Spares (library : Library) (graph : Graph) (name : String) : Prop :=
  ∀ inner, Relation.ReflTransGen (Calls library) graph inner → ¬ Mentions inner name

theorem Enters.calls {body inner : Body} (enters : Enters library body inner) :
    Calls library body.graph inner.graph := by
  obtain ⟨graph, opened⟩ := body
  obtain ⟨inner, names⟩ := inner
  obtain ⟨id, node, reached, found, function, opens⟩ := enters
  generalize held : node.params.subtree = subtree at opens
  cases opens with
  | inline => exact ⟨[], id, node, reached, found, function, held ▸ .inline _⟩
  | @named name _ _ there =>
    exact ⟨[name], id, node, reached, found, function, held ▸ .named List.not_mem_nil there⟩

theorem Opens.graph_unique {opened opened' names names' : List String} {subtree : Option Subtree}
    {body body' : Graph} (opens : Opens library opened subtree body names)
    (opens' : Opens library opened' subtree body' names') : body = body' := by
  cases opens with
  | inline =>
    cases opens'
    rfl
  | named _ found =>
    cases opens' with
    | named _ found' => exact Option.some.inj (found.symm.trans found')

theorem Opens.subset {opened names : List String} {subtree : Option Subtree} {body : Graph}
    (opens : Opens library opened subtree body names) : opened ⊆ names := by
  cases opens with
  | inline => exact List.Subset.refl _
  | named => exact List.subset_cons_self _ _

section Recursion

variable {graph : Graph} {opened : List String}
  (wellFormed : ∀ body, Expanded sources.library ⟨graph, opened⟩ body → WellFormedBody sources body)

include wellFormed

/-- Where everything is well-formed, every graph that is called is expanded, and what was open
stays open in it. -/
theorem expanded_of_calls {inner : Graph}
    (calls : Relation.ReflTransGen (Calls sources.library) graph inner) :
    ∃ names, Expanded sources.library ⟨graph, opened⟩ ⟨inner, names⟩ ∧ opened ⊆ names := by
  induction calls with
  | refl => exact ⟨opened, .refl, List.Subset.refl _⟩
  | tail _ call ih =>
    obtain ⟨names, expanded, kept⟩ := ih
    obtain ⟨_, id, node, reached, found, function, opens⟩ := call
    obtain ⟨kind, parsed, fits⟩ := (wellFormed _ expanded).fits id node reached found
    obtain rfl := Option.some.inj (parsed.symm.trans function)
    obtain ⟨_, names', opens'⟩ := fits.expands rfl
    obtain rfl := opens.graph_unique opens'
    have enters : Enters sources.library ⟨_, names⟩ ⟨_, names'⟩ :=
      ⟨id, node, reached, found, function, opens'⟩
    exact ⟨names', expanded.tail enters, List.Subset.trans kept opens'.subset⟩

/-- A library graph in which everything is well-formed does not come back to itself: on the second
round its name would be open. -/
theorem spares_itself {name : String} (found : sources.library.get? name = some graph) :
    Spares sources.library graph name := by
  intro inner calls mentioned
  obtain ⟨id, node, reached, there, function, held⟩ := mentioned
  have closed {names : List String} (expanded : Expanded sources.library ⟨graph, opened⟩ ⟨inner, names⟩) :
      name ∉ names := by
    obtain ⟨kind, parsed, fits⟩ := (wellFormed _ expanded).fits id node reached there
    obtain rfl := Option.some.inj (parsed.symm.trans function)
    obtain ⟨body, names', opens⟩ := fits.expands rfl
    rw [held] at opens
    cases opens with
    | named closed _ => exact closed
  obtain ⟨names, expanded, _⟩ := expanded_of_calls wellFormed calls
  -- once around the calls the name is open, and the same calls lead to a node that opens it again
  have around : Expanded sources.library ⟨graph, opened⟩ ⟨graph, name :: names⟩ :=
    expanded.tail ⟨id, node, reached, there, function, held ▸ .named (closed expanded) found⟩
  obtain ⟨names', again, kept⟩ :=
    expanded_of_calls (fun body below => wellFormed body (around.trans below)) calls
  exact closed (around.trans again) (kept List.mem_cons_self)

end Recursion

/-- The bodies that stand for each other where a name is written out: the graphs are the same, or
the name is still to come. A name that is open here and not there is not mentioned below. -/
structure Echoes (library : Library) (body body' : Body) : Prop where
  graphs : body'.graph = body.graph ∨ body.opened = [] ∧ Inlined library body.graph body'.graph
  fewer : body'.opened ⊆ body.opened
  spared : ∀ name ∈ body.opened, name ∈ body'.opened ∨ Spares library body.graph name

theorem Echoes.twins {body body' : Body} (echoes : Echoes library body body') :
    Twins library body.graph body'.graph := by
  rcases echoes.graphs with same | ⟨_, inlined⟩
  · rw [same]
    exact .refl _
  · exact inlined.twins

theorem Spares.of_calls {graph inner : Graph} {name : String} (spares : Spares library graph name)
    (calls : Calls library graph inner) : Spares library inner name :=
  fun deeper path => spares deeper (.head calls path)

theorem Spares.of_echoes {body body' : Body} (echoes : Echoes library body body') {inner : Graph}
    (calls : Calls library body.graph inner) :
    ∀ name ∈ body.opened, name ∈ body'.opened ∨ Spares library inner name :=
  fun name there => (echoes.spared name there).imp_right fun spares => spares.of_calls calls

section Transfer

variable {graph' : Graph}
  (wellFormed : ∀ body', Expanded sources.library ⟨graph', []⟩ body' → WellFormedBody sources body')

include wellFormed

theorem Echoes.step {body body' inner : Body} (echoes : Echoes sources.library body body')
    (expanded : Expanded sources.library ⟨graph', []⟩ body')
    (enters : Enters sources.library body inner) :
    ∃ inner', Enters sources.library body' inner' ∧ Echoes sources.library inner inner' := by
  have calls := enters.calls
  obtain ⟨inner, names⟩ := inner
  obtain ⟨id, node, reached, found, function, opens⟩ := enters
  have reached' := echoes.twins.reached reached
  obtain ⟨node', found', twin⟩ := exists_right (echoes.twins.find? id) found
  have function' : NodeKind.parse? node'.kind = some .functionNode := twin.kind.symm ▸ function
  have spared := Spares.of_echoes echoes calls
  have enters' {inner' : Graph} {names' : List String}
      (opens' : Opens sources.library body'.opened node'.params.subtree inner' names') :
      Enters sources.library body' ⟨inner', names'⟩ :=
    ⟨id, node', reached', found', function', opens'⟩
  generalize held : node.params.subtree = subtree at opens
  generalize held' : node'.params.subtree = subtree' at enters'
  have rewritten := twin.subtree
  rw [held, held'] at rewritten
  cases opens with
  | inline =>
    cases rewritten with
    | same => exact ⟨_, enters' (.inline inner), .inl rfl, echoes.fewer, spared⟩
    | deeper inlined =>
      rcases echoes.graphs with same | ⟨none, _⟩
      · -- both graphs are one, so this is one node and nothing in its graph was written out
        obtain rfl := Option.some.inj (found.symm.trans (same ▸ found'))
        cases held.symm.trans held'
        exact ⟨_, enters' (.inline _), .inl rfl, echoes.fewer, spared⟩
      · exact ⟨_, enters' (.inline _), .inr ⟨none, inlined⟩, echoes.fewer, spared⟩
  | @named name _ closed there =>
    have closed' : name ∉ body'.opened := fun opened => closed (echoes.fewer opened)
    cases rewritten with
    | same =>
      refine ⟨_, enters' (.named closed' there), .inl rfl, List.cons_subset_cons name echoes.fewer, ?_⟩
      intro other opened
      rcases List.mem_cons.mp opened with rfl | opened
      · exact .inl List.mem_cons_self
      · exact (spared other opened).imp_left (List.mem_cons_of_mem name)
    | replaced there' =>
      obtain rfl := Option.some.inj (there.symm.trans there')
      have entered := enters' (.inline inner)
      refine ⟨_, entered, .inl rfl, List.subset_cons_of_subset name echoes.fewer, ?_⟩
      intro other opened
      rcases List.mem_cons.mp opened with rfl | opened
      · -- written out, the graph is expanded with its name closed, and everything in it is in order
        exact .inr (spares_itself (fun deeper below =>
          wellFormed deeper ((expanded.tail entered).trans below)) there)
      · exact spared other opened

theorem exists_echo {graph : Graph} (inlined : Inlined sources.library graph graph') {body : Body}
    (expanded : Expanded sources.library ⟨graph, []⟩ body) :
    ∃ body', Expanded sources.library ⟨graph', []⟩ body' ∧ Echoes sources.library body body' := by
  induction expanded with
  | refl => exact ⟨⟨graph', []⟩, .refl, .inr ⟨rfl, inlined⟩, List.Subset.refl [], nofun⟩
  | tail _ enters ih =>
    obtain ⟨body', expanded', echoes⟩ := ih
    obtain ⟨inner', enters', echoes'⟩ := echoes.step wellFormed expanded' enters
    exact ⟨inner', expanded'.tail enters', echoes'⟩

end Transfer

theorem Echoes.wellFormed {body body' : Body} (echoes : Echoes sources.library body body')
    (wellFormed : WellFormedBody sources body') : WellFormedBody sources body := by
  apply wellFormed.twin echoes.twins
  intro id node reached found function
  obtain ⟨node', found', twin⟩ := exists_right (echoes.twins.find? id) found
  obtain ⟨kind, parsed, fits⟩ :=
    wellFormed.fits id node' (echoes.twins.reached reached) found'
  obtain rfl := Option.some.inj (parsed.symm.trans (twin.kind.symm ▸ function))
  obtain ⟨inner, names, opens⟩ := fits.expands rfl
  have rewritten := twin.subtree
  generalize held : node.params.subtree = subtree at rewritten
  generalize held' : node'.params.subtree = subtree' at rewritten opens
  have spared {name : String} (mentioned : subtree = some (.named name))
      (closed : name ∉ body'.opened) : name ∉ body.opened := by
    intro opened
    rcases echoes.spared name opened with opened | spares
    · exact closed opened
    · exact spares _ .refl ⟨id, node, reached, found, function, held.trans mentioned⟩
  cases rewritten with
  | same =>
    cases opens with
    | inline => exact ⟨inner, body.opened, .inline inner⟩
    | named closed there => exact ⟨inner, _, .named (spared rfl closed) there⟩
  | @replaced name graph there =>
    rcases echoes.graphs with same | ⟨none, _⟩
    · obtain rfl := Option.some.inj (found.symm.trans (same ▸ found'))
      cases held.symm.trans held'
    · have closed : name ∉ body.opened := by
        rw [none]
        exact List.not_mem_nil
      exact ⟨graph, _, .named closed there⟩
  | @deeper graph _ _ => exact ⟨graph, body.opened, .inline graph⟩

theorem Echoes.seeds {body body' : Body} (echoes : Echoes library body body') {name : String}
    {kind : ValueKind} (seeds : Seeds body name kind) : Seeds body' name kind := by
  obtain ⟨declared, member, facts⟩ := seeds
  exact ⟨declared, echoes.twins.declarations ▸ member, facts⟩

theorem wellFormed_of_inlined {graph graph' : Graph} (inlined : Inlined sources.library graph graph')
    (wellFormed : WellFormed sources graph') : WellFormed sources graph := by
  constructor
  · intro body expanded
    obtain ⟨body', expanded', echoes⟩ := exists_echo wellFormed.bodies inlined expanded
    exact echoes.wellFormed (wellFormed.bodies body' expanded')
  · intro first second name kind kind' left right seeds seeds'
    obtain ⟨first', left', echoes⟩ := exists_echo wellFormed.bodies inlined left
    obtain ⟨second', right', echoes'⟩ := exists_echo wellFormed.bodies inlined right
    exact wellFormed.agree first' second' name kind kind' left' right' (echoes.seeds seeds)
      (echoes'.seeds seeds')

/-- A name of the library and the graph it stands for are interchangeable, in a graph and in the
graphs written inside it: either both builds fail, or both make the same tree and variables. -/
theorem build_inlined {graph graph' : Graph} (inlined : Inlined sources.library graph graph')
    (built : Built H) : build sources graph = .ok built ↔ build sources graph' = .ok built := by
  constructor
  · exact build_of_inlined inlined
  · intro ok
    -- what the graph with the name builds to is known only once it is known to build
    obtain ⟨built', ok'⟩ :=
      build_of_wellFormed (wellFormed_of_inlined inlined (wellFormed_of_build ok))
    cases ok.symm.trans (build_of_inlined inlined ok')
    exact ok'

end Build

namespace Rehearsal

def lookout : Graph where
  nodes := [
    { kind := "Root", id := "root", children := ["ready"], params := {} },
    { kind := "ConditionNode", id := "ready", params := {
        unit := some "Script", inputs := [.literal "ready", .literal "t"] } }]

def patrol (subtree : Subtree) : Graph where
  nodes := [
    { kind := "Root", id := "root", children := ["round"], params := {} },
    { kind := "FunctionNode", id := "round", params := { subtree := some (.inline {
        nodes := [
          { kind := "Root", id := "root", children := ["post"], params := {} },
          { kind := "FunctionNode", id := "post", params := { subtree := some subtree } }] }) } }]

def patrolling : Build.Sources Rehearsal :=
  { rehearsed with library := ⟨[("lookout", lookout)]⟩ }

theorem patrol_written_out : Build.Inlined patrolling.library (patrol (.named "lookout"))
    (patrol (.inline lookout)) :=
  have inner := @Build.Inlined.here patrolling.library [] [_] [] _ "lookout" lookout rfl rfl
  @Build.Inlined.within patrolling.library [] [_] [] _ _ _ rfl inner

theorem patrol_inlined : ∃ built,
    build patrolling (patrol (.named "lookout")) = .ok built ∧
    build patrolling (patrol (.inline lookout)) = .ok built := by
  have ok : (build patrolling (patrol (.named "lookout"))).isOk = true := by decide +kernel
  cases made : build patrolling (patrol (.named "lookout")) with
  | ok built => exact ⟨built, rfl, (Build.build_inlined patrol_written_out built).mp made⟩
  | error _ => rw [made] at ok; cases ok

end Rehearsal

end ReactiveTree
