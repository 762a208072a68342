import ReactiveTree.Proofs.Soundness

/-!
What is on the blackboard of a new tree. A build expands bodies one after the other, each before
those of the function nodes in it, and writes the declarations of a body when it comes to it. So the
board is what is left when all declarations of all bodies are written in a row: of each variable the
value that the last of them gives it.
-/

namespace ReactiveTree

namespace Blackboard

variable {board : Blackboard} {name : String} {value : Value}

def names (board : Blackboard) : List String := board.entries.map Prod.fst

theorem contains_iff_mem_names : board.contains name ↔ name ∈ board.names := by
  unfold contains find? names
  rw [Option.isSome_iff_ne_none, ne_eq, List.lookup_eq_none_iff]
  simp only [List.mem_map, not_forall, exists_prop, bne_iff_ne, ne_eq, Decidable.not_not]
  exact exists_congr fun entry => and_congr_right fun _ => eq_comm

theorem names_put (board : Blackboard) (name : String) (value : Value) :
    (board.put name value).names =
      if board.contains name then board.names else board.names ++ [name] := by
  unfold put
  split
  · -- the entry of the name keeps its name
    rw [names, names, List.map_map]
    apply List.map_congr_left
    intro entry _
    by_cases here : entry.1 = name <;> simp [here]
  · simp [names]

theorem put_distinct (distinct : board.names.Nodup) : (board.put name value).names.Nodup := by
  rw [names_put]
  split
  · exact distinct
  · rename_i absent
    rw [contains_iff_mem_names] at absent
    rw [← List.concat_eq_append]
    exact distinct.concat absent

end Blackboard

namespace Build

/-- The declaration is the last one of the list that gives its variable a value. -/
def Prevails (declared : Declaration) (declarations : List Declaration) : Prop :=
  ∃ earlier later, declarations = earlier ++ declared :: later ∧ declared.value.isSome ∧
    ∀ other ∈ later, other.name = declared.name → other.value = none

/-- The board has the variables that the list declares with a value, each of them once and with the
value of the last such declaration, and the list does not disagree about the kind of any. -/
structure Records (board : Blackboard) (declarations : List Declaration) : Prop where
  distinct : board.names.Nodup
  covers : ∀ name, name ∈ board.names ↔
    ∃ declared ∈ declarations, declared.name = name ∧ declared.value.isSome
  holds : ∀ name ∈ board.names, ∃ declared kind text content, declared.name = name ∧
    Prevails declared declarations ∧ declared.kind = some kind ∧ declared.value = some text ∧
    Literal.parse? kind text = some content ∧ board.find? name = some ⟨kind, content⟩
  agree : ∀ declared ∈ declarations, ∀ declared' ∈ declarations, declared.value.isSome →
    declared'.value.isSome → declared.name = declared'.name →
    ∃ kind, declared.kind = some kind ∧ declared'.kind = some kind

section Writing

variable {board after : Blackboard} {declarations : List Declaration} {name : String}

theorem declareAll_append_eq_ok {more : List Declaration} :
    declareAll board (declarations ++ more) = .ok after ↔
      ∃ middle, declareAll board declarations = .ok middle ∧
        declareAll middle more = .ok after := by
  induction declarations generalizing board with
  | nil => simp [declareAll]
  | cons first rest ih =>
    simp only [List.cons_append, declareAll_cons_eq_ok, ih]
    constructor
    · rintro ⟨next, written, middle, early, late⟩
      exact ⟨middle, ⟨next, written, early⟩, late⟩
    · rintro ⟨middle, ⟨next, written, early⟩, late⟩
      exact ⟨next, written, middle, early, late⟩

theorem declareAll_distinct (written : declareAll board declarations = .ok after)
    (distinct : board.names.Nodup) : after.names.Nodup := by
  induction declarations generalizing board with
  | nil =>
    cases written
    exact distinct
  | cons first rest ih =>
    obtain ⟨next, step, written⟩ := declareAll_cons_eq_ok.mp written
    apply ih written
    rcases declare_eq_ok.mp step with ⟨_, rfl⟩ | ⟨kind, text, content, _, _, _, _, rfl⟩
    · exact distinct
    · exact Blackboard.put_distinct distinct

theorem declareAll_aside (written : declareAll board declarations = .ok after)
    (silent : ∀ declared ∈ declarations, declared.name = name → declared.value = none) :
    after.find? name = board.find? name := by
  induction declarations generalizing board with
  | nil =>
    cases written
    rfl
  | cons first rest ih =>
    obtain ⟨next, step, written⟩ := declareAll_cons_eq_ok.mp written
    obtain ⟨silentFirst, silent⟩ := List.forall_mem_cons.mp silent
    rw [ih written silent]
    rcases declare_eq_ok.mp step with ⟨_, rfl⟩ | ⟨kind, text, content, _, valued, _, _, rfl⟩
    · rfl
    · have other : name ≠ first.name := by
        rintro rfl
        exact nomatch valued.symm.trans (silentFirst rfl)
      rw [Blackboard.find?_put, if_neg other]

/-- Whatever else is declared, the last declaration of a variable fixes its value. -/
theorem declareAll_prevailing {declared : Declaration}
    (written : declareAll board declarations = .ok after)
    (prevails : Prevails declared declarations) :
    ∃ kind text content, declared.kind = some kind ∧ declared.value = some text ∧
      Literal.parse? kind text = some content ∧
      after.find? declared.name = some ⟨kind, content⟩ := by
  obtain ⟨earlier, later, rfl, valued, silent⟩ := prevails
  obtain ⟨middle, _, written⟩ := declareAll_append_eq_ok.mp written
  obtain ⟨next, step, written⟩ := declareAll_cons_eq_ok.mp written
  have kept := declareAll_aside written silent
  rcases declare_eq_ok.mp step with ⟨valueless, _⟩ | ⟨kind, text, content, kinded, literal,
    parsed, _, rfl⟩
  · rw [valueless] at valued
    cases valued
  · refine ⟨kind, text, content, kinded, literal, parsed, ?_⟩
    rw [kept, Blackboard.find?_put, if_pos rfl]

theorem exists_prevails
    (given : ∃ declared ∈ declarations, declared.name = name ∧ declared.value.isSome) :
    ∃ last, last.name = name ∧ Prevails last declarations := by
  induction declarations with
  | nil => simp at given
  | cons first rest ih =>
    -- a later declaration of the variable has the last one behind it, or is it
    by_cases again : ∃ declared ∈ rest, declared.name = name ∧ declared.value.isSome
    · obtain ⟨last, named, earlier, later, rfl, valued, silent⟩ := ih again
      exact ⟨last, named, first :: earlier, later, rfl, valued, silent⟩
    · obtain ⟨declared, member, named, valued⟩ := given
      rcases List.mem_cons.mp member with rfl | later
      · refine ⟨declared, named, [], rest, rfl, valued, ?_⟩
        intro other member same
        by_contra written
        exact again ⟨other, member, same.trans named, Option.isSome_iff_ne_none.mpr written⟩
      · exact absurd ⟨declared, later, named, valued⟩ again

theorem declareAll_contains (written : declareAll board declarations = .ok after) :
    after.contains name ↔ board.contains name ∨
      ∃ declared ∈ declarations, declared.name = name ∧ declared.value.isSome := by
  by_cases given : ∃ declared ∈ declarations, declared.name = name ∧ declared.value.isSome
  · obtain ⟨last, rfl, prevails⟩ := exists_prevails given
    obtain ⟨kind, text, content, _, _, _, found⟩ := declareAll_prevailing written prevails
    have there : after.contains last.name := by rw [Blackboard.contains, found]; rfl
    exact iff_of_true there (.inr given)
  · have silent : ∀ declared ∈ declarations, declared.name = name → declared.value = none := by
      intro declared member named
      by_contra valued
      exact given ⟨declared, member, named, Option.isSome_iff_ne_none.mpr valued⟩
    rw [Blackboard.contains, declareAll_aside written silent, or_iff_left given]
    rfl

theorem declareAll_records (written : declareAll {} declarations = .ok after) :
    Records after declarations := by
  obtain ⟨declares, _, knows⟩ := declareAll_sound written
  have covers : ∀ name, name ∈ after.names ↔
      ∃ declared ∈ declarations, declared.name = name ∧ declared.value.isSome := by
    intro name
    rw [← Blackboard.contains_iff_mem_names, declareAll_contains written]
    exact or_iff_right nofun
  constructor
  · exact declareAll_distinct written List.nodup_nil
  · exact covers
  · intro name member
    obtain ⟨declared, rfl, prevails⟩ := exists_prevails ((covers name).mp member)
    obtain ⟨kind, text, content, kinded, valued, parsed, found⟩ :=
      declareAll_prevailing written prevails
    exact ⟨declared, kind, text, content, rfl, prevails, kinded, valued, parsed, found⟩
  · -- the board holds one kind for the name, and all that was written to it is of that kind
    intro declared member declared' member' valued valued' same
    obtain ⟨kind, kinded, _⟩ := declares declared member _ (Option.some_get valued).symm
    obtain ⟨kind', kinded', _⟩ := declares declared' member' _ (Option.some_get valued').symm
    have known := knows declared member kind kinded valued
    have known' := knows declared' member' kind' kinded' valued'
    rw [same] at known
    obtain rfl := Option.some.inj (known.symm.trans known')
    exact ⟨kind, kinded, kinded'⟩

end Writing

section Bodies

variable {library : Library} {body inner : Body} {ids more : List String}
  {bodies bodies' : List Body}

/-- The bodies that are expanded by the ids of a list and what they lead to, in the order of the
walk. The body of a function node comes before what is expanded in it, and that before the bodies of
the next id. -/
inductive Unfolds (library : Library) : Body → List String → List Body → Prop where
  | nil (body : Body) : Unfolds library body [] []
  | plain {body : Body} {id : String} {ids : List String} {node : Descriptor}
      {below later : List Body} (found : body.graph.find? id = some node)
      (other : NodeKind.parse? node.kind ≠ some .functionNode)
      (under : Unfolds library body node.children below) (rest : Unfolds library body ids later) :
      Unfolds library body (id :: ids) (below ++ later)
  | function {body inner : Body} {id : String} {ids : List String} {node root : Descriptor}
      {within later : List Body} (found : body.graph.find? id = some node)
      (function : NodeKind.parse? node.kind = some .functionNode)
      (opens : Opens library body.opened node.params.subtree inner.graph inner.opened)
      (rooted : inner.graph.root? = some root)
      (inside : Unfolds library inner root.children within)
      (rest : Unfolds library body ids later) :
      Unfolds library body (id :: ids) (inner :: within ++ later)

/-- All that is expanded with a body, in order: the body itself and then those within it. -/
def Expansion (library : Library) (body : Body) (bodies : List Body) : Prop :=
  ∃ root within, body.graph.root? = some root ∧ Unfolds library body root.children within ∧
    bodies = body :: within

def inventory (bodies : List Body) : List Declaration :=
  bodies.flatMap fun body => body.graph.declarations

@[simp] theorem inventory_append :
    inventory (bodies ++ bodies') = inventory bodies ++ inventory bodies' :=
  List.flatMap_append

namespace Unfolds

theorem append (first : Unfolds library body ids bodies)
    (rest : Unfolds library body more bodies') :
    Unfolds library body (ids ++ more) (bodies ++ bodies') := by
  induction first with
  | nil => exact rest
  | plain found other under _ _ ih =>
    rw [List.append_assoc]
    exact .plain found other under (ih rest)
  | function found function opens rooted inside _ _ ih =>
    rw [List.append_assoc]
    exact .function found function opens rooted inside (ih rest)

theorem unique (unfolds : Unfolds library body ids bodies)
    (unfolds' : Unfolds library body ids bodies') : bodies = bodies' := by
  induction unfolds generalizing bodies' with
  | nil =>
    cases unfolds'
    rfl
  | plain found other _ _ ihUnder ihRest =>
    cases unfolds' with
    | plain found' _ under' rest' =>
      obtain rfl := Option.some.inj (found.symm.trans found')
      rw [ihUnder under', ihRest rest']
    | function found' function' =>
      obtain rfl := Option.some.inj (found.symm.trans found')
      exact absurd function' other
  | @function _ inner _ _ _ _ _ _ found function opens rooted _ _ ihInside ihRest =>
    cases unfolds' with
    | plain found' other' =>
      obtain rfl := Option.some.inj (found.symm.trans found')
      exact absurd function other'
    | @function _ inner' _ _ _ _ _ _ found' _ opens' rooted' inside' rest' =>
      obtain rfl := Option.some.inj (found.symm.trans found')
      obtain ⟨graph, opened⟩ := inner
      obtain ⟨graph', opened'⟩ := inner'
      obtain ⟨rfl, rfl⟩ := opens.unique opens'
      obtain rfl := Option.some.inj (rooted.symm.trans rooted')
      rw [ihInside inside', ihRest rest']

theorem expanded (unfolds : Unfolds library body ids bodies)
    (reached : ∀ id ∈ ids, Reached body.graph id) :
    ∀ inner ∈ bodies, Expanded library body inner := by
  induction unfolds with
  | nil => nofun
  | plain found _ _ _ ihUnder ihRest =>
    obtain ⟨here, later⟩ := List.forall_mem_cons.mp reached
    have below := ihUnder fun id listed => .child here found listed
    exact List.forall_mem_append.mpr ⟨below, ihRest later⟩
  | function found function opens rooted _ _ ihInside ihRest =>
    obtain ⟨here, later⟩ := List.forall_mem_cons.mp reached
    have within := ihInside fun id listed => .root rooted listed
    have enters : Enters library _ _ := ⟨_, _, here, found, function, opens⟩
    refine List.forall_mem_append.mpr ⟨List.forall_mem_cons.mpr ⟨.single enters, ?_⟩, ihRest later⟩
    exact fun deeper member => .head enters (within deeper member)

theorem of_mem (unfolds : Unfolds library body ids bodies) {id : String} (listed : id ∈ ids) :
    ∃ part, Unfolds library body [id] part ∧ part ⊆ bodies := by
  induction unfolds with
  | nil => cases listed
  | @plain body _ _ _ below later found other under _ _ ihRest =>
    rcases List.mem_cons.mp listed with rfl | behind
    · exact ⟨_, .plain found other under (.nil body), by simp⟩
    · obtain ⟨part, unfolds, inside⟩ := ihRest behind
      exact ⟨part, unfolds, fun _ member => List.mem_append_right _ (inside member)⟩
  | @function body _ _ _ _ _ _ _ found function opens rooted inside _ _ ihRest =>
    rcases List.mem_cons.mp listed with rfl | behind
    · exact ⟨_, .function found function opens rooted inside (.nil body), by simp⟩
    · obtain ⟨part, unfolds, inside⟩ := ihRest behind
      exact ⟨part, unfolds, fun _ member => List.mem_append_right _ (inside member)⟩

theorem of_reached {root : Descriptor} (rooted : body.graph.root? = some root)
    (childless : ∀ id node, Reached body.graph id → body.graph.find? id = some node →
      NodeKind.parse? node.kind = some .functionNode → node.children = [])
    (unfolds : Unfolds library body root.children bodies) {id : String}
    (reached : Reached body.graph id) :
    ∃ part, Unfolds library body [id] part ∧ part ⊆ bodies := by
  induction reached with
  | root rooted' listed =>
    obtain rfl := Option.some.inj (rooted.symm.trans rooted')
    exact unfolds.of_mem listed
  | child above found listed ih =>
    obtain ⟨part, single, inside⟩ := ih
    cases single with
    | plain found' _ under =>
      obtain rfl := Option.some.inj (found.symm.trans found')
      obtain ⟨deeper, unfolds, within⟩ := under.of_mem listed
      exact ⟨deeper, unfolds, fun _ member => inside (List.mem_append_left _ (within member))⟩
    | function found' function =>
      -- what is walked at a function node is its body, and it has no children that could be missed
      obtain rfl := Option.some.inj (found.symm.trans found')
      rw [childless _ _ above found function] at listed
      cases listed

end Unfolds

namespace Expansion

theorem unique (expansion : Expansion library body bodies)
    (expansion' : Expansion library body bodies') : bodies = bodies' := by
  obtain ⟨root, within, rooted, unfolds, rfl⟩ := expansion
  obtain ⟨_, _, rooted', unfolds', rfl⟩ := expansion'
  obtain rfl := Option.some.inj (rooted.symm.trans rooted')
  rw [unfolds.unique unfolds']

theorem expanded (expansion : Expansion library body bodies) :
    ∀ inner ∈ bodies, Expanded library body inner := by
  obtain ⟨root, within, rooted, unfolds, rfl⟩ := expansion
  exact List.forall_mem_cons.mpr ⟨.refl, unfolds.expanded fun _ listed => .root rooted listed⟩

theorem complete {H : Host} {sources : Sources H}
    (wellFormed : ∀ inner, Expanded sources.library body inner → WellFormedBody sources inner)
    (expansion : Expansion sources.library body bodies)
    (expanded : Expanded sources.library body inner) : inner ∈ bodies := by
  induction expanded using Relation.ReflTransGen.head_induction_on generalizing bodies with
  | refl =>
    obtain ⟨root, within, _, _, rfl⟩ := expansion
    exact List.mem_cons_self
  | @head body next enters _ ih =>
    obtain ⟨root, within, rooted, unfolds, rfl⟩ := expansion
    have here := wellFormed body .refl
    have deeper := fun inner below => wellFormed inner (.head enters below)
    obtain ⟨id, node, reached, found, function, opens⟩ := enters
    have childless : ∀ id node, Reached body.graph id → body.graph.find? id = some node →
        NodeKind.parse? node.kind = some .functionNode → node.children = [] := by
      intro id node reached found function
      obtain ⟨kind, parsed, fits⟩ := here.fits id node reached found
      obtain rfl := Option.some.inj (parsed.symm.trans function)
      exact List.length_eq_zero_iff.mp (of_decide_eq_true fits.counted)
    -- the walk came to the function node, and what it opened there is the next body
    obtain ⟨part, single, inside⟩ := unfolds.of_reached rooted childless reached
    apply List.mem_cons_of_mem
    apply inside
    cases single with
    | plain found' other =>
      obtain rfl := Option.some.inj (found.symm.trans found')
      exact absurd function other
    | @function _ next' _ _ _ root' within' _ found' _ opens' rooted' unfolds' =>
      obtain rfl := Option.some.inj (found.symm.trans found')
      obtain ⟨graph, opened⟩ := next
      obtain ⟨graph', opened'⟩ := next'
      obtain ⟨rfl, rfl⟩ := opens.unique opens'
      exact List.mem_append_left _ (ih deeper ⟨root', within', rooted', unfolds', rfl⟩)

end Expansion

end Bodies

section Walks

variable {H : Host} {sources : Sources H} {body : Body}
  {build : Descriptor → Progress → Walk (Tree H × Progress)}

/-- The second board is the first one with the declarations of all that the ids lead to. -/
def Furnishes (library : Library) (body : Body) (ids : List String) (before after : Blackboard) :
    Prop :=
  ∃ bodies, Unfolds library body ids bodies ∧ declareAll before (inventory bodies) = .ok after

theorem Furnishes.append {library : Library} {ids more : List String}
    {before middle after : Blackboard} (first : Furnishes library body ids before middle)
    (rest : Furnishes library body more middle after) :
    Furnishes library body (ids ++ more) before after := by
  obtain ⟨bodies, unfolds, early⟩ := first
  obtain ⟨bodies', unfolds', late⟩ := rest
  refine ⟨_, unfolds.append unfolds', ?_⟩
  rw [inventory_append]
  exact declareAll_append_eq_ok.mpr ⟨middle, early, late⟩

def WalkFurnishes (sources : Sources H) (body : Body)
    (build : Descriptor → Progress → Walk (Tree H × Progress)) : Prop :=
  ∀ node progress tree after, body.graph.find? node.id = some node →
    build node progress = .ok (tree, after) →
    Furnishes sources.library body [node.id] progress.blackboard after.blackboard

theorem buildEach_furnishes (furnishes : WalkFurnishes sources body build) {parent : String}
    {ids : List String} {progress after : Progress} {trees : List (Tree H)}
    (built : buildEach build body.graph parent ids progress = .ok (trees, after)) :
    Furnishes sources.library body ids progress.blackboard after.blackboard := by
  induction ids generalizing progress trees with
  | nil =>
    cases built
    exact ⟨[], .nil body, rfl⟩
  | cons id ids ih =>
    obtain ⟨node, tree, middle, rest, found, first, later, rfl⟩ := buildEach_cons_eq_ok.mp built
    obtain rfl := id_of_find found
    exact (furnishes node progress tree middle found first).append (ih later)

theorem buildBody_furnishes (furnishes : WalkFurnishes sources body build) {scope : String}
    {progress after : Progress} {tree : Tree H}
    (built : buildBody build body.graph scope progress = .ok (tree, after)) :
    ∃ bodies, Expansion sources.library body bodies ∧
      declareAll progress.blackboard (inventory bodies) = .ok after.blackboard := by
  obtain ⟨root, id, child, board, inner, rooted, declared, single, found, walked, rfl⟩ :=
    buildBody_eq_ok.mp built
  obtain rfl := id_of_find found
  obtain ⟨within, unfolds, written⟩ := furnishes child _ tree inner found walked
  rw [← single] at unfolds
  refine ⟨body :: within, ⟨root, within, rooted, unfolds, rfl⟩, ?_⟩
  exact declareAll_append_eq_ok.mpr ⟨board, declared, written⟩

theorem buildNode_furnishes (depth : Nat) (body : Body) (scope : String) :
    WalkFurnishes sources body (buildNode sources depth body.graph body.opened scope) := by
  induction depth generalizing body scope with
  | zero =>
    intro node progress tree after _ built
    cases built
  | succ depth ih =>
    intro node progress tree after found built
    obtain ⟨_, kind, children, middle, parsed, counted, each, made⟩ := buildNode_eq_ok.mp built
    rcases made with ⟨plain, rfl, _⟩ | ⟨rfl, inner, names, tree', opens, walked, rfl⟩
    · have other : NodeKind.parse? node.kind ≠ some .functionNode := by
        rw [parsed]
        exact fun same => plain (Option.some.inj same)
      obtain ⟨below, unfolds, written⟩ := buildEach_furnishes (ih body scope) each
      refine ⟨below ++ [], .plain found other unfolds (.nil body), ?_⟩
      rw [List.append_nil]
      exact written
    · -- a function node has no children, so its body is what comes next
      obtain ⟨_, rfl⟩ := buildEach_childless (of_decide_eq_true counted) each
      obtain ⟨bodies, ⟨root, within, rooted, unfolds, rfl⟩, written⟩ :=
        buildBody_furnishes (ih ⟨inner, names⟩ (keyIn scope node.id)) walked
      refine ⟨⟨inner, names⟩ :: within ++ [],
        .function found parsed opens rooted unfolds (.nil body), ?_⟩
      rw [List.append_nil]
      exact written

end Walks

end Build

open Build

/-- The blackboard of a new tree records the declarations of all expanded bodies, in the order in
which the bodies are expanded. -/
theorem initial_blackboard {H : Host} {sources : Sources H} {graph : Graph} {built : Built H}
    (ok : build sources graph = .ok built) :
    ∃ bodies, (∀ bodies', Expansion sources.library ⟨graph, []⟩ bodies' ↔ bodies' = bodies) ∧
      (∀ body, body ∈ bodies ↔ Expanded sources.library ⟨graph, []⟩ body) ∧
      Records built.blackboard (inventory bodies) := by
  have wellFormed := wellFormed_of_build ok
  obtain ⟨root, tree, progress, _, walked, rfl⟩ := build_eq_ok.mp ok
  obtain ⟨bodies, expansion, written⟩ :=
    buildBody_furnishes (buildNode_furnishes _ ⟨graph, []⟩ "") walked
  refine ⟨bodies, fun bodies' => ⟨?_, ?_⟩, fun body => ⟨?_, ?_⟩, declareAll_records written⟩
  · exact fun other => other.unique expansion
  · rintro rfl
    exact expansion
  · exact expansion.expanded body
  · exact expansion.complete wellFormed.bodies

namespace Rehearsal

def bar : Graph where
  declarations := [
    { name := "tempo", kind := some .int, value := some "90" },
    { name := "key", kind := some .text }]
  nodes := [
    { kind := "Root", id := "root", children := ["play"], params := {} },
    { kind := "ConditionNode", id := "play", params := {
        unit := some "Script", inputs := [.literal "play", .literal "t"] } }]

def score : Graph where
  declarations := [
    { name := "tempo", kind := some .int, value := some "60" },
    { name := "loud", kind := some .bool, value := some "true" }]
  nodes := [
    { kind := "Root", id := "root", children := ["both"], params := {} },
    { kind := "Sequencer", id := "both", children := ["first", "second"], params := {} },
    { kind := "FunctionNode", id := "first", params := { subtree := some (.named "bar") } },
    { kind := "FunctionNode", id := "second", params := { subtree := some (.named "bar") } }]

def performing : Build.Sources Rehearsal := { rehearsed with library := ⟨[("bar", bar)]⟩ }

/-- The bar is an expanded body, so its tempo is the one that the score is played in. -/
example : ((build performing score).toOption.map fun built => built.blackboard.entries) =
    some [("tempo", ⟨.int, (90 : Int32)⟩), ("loud", ⟨.bool, true⟩)] := by decide +kernel

theorem score_is_recorded : ∃ built bodies, build performing score = .ok built ∧
    (∀ body, body ∈ bodies ↔ Expanded performing.library ⟨score, []⟩ body) ∧
    Records built.blackboard (inventory bodies) := by
  obtain ⟨built, made⟩ : ∃ built, build performing score = .ok built :=
    exists_built (by decide +kernel)
  obtain ⟨bodies, _, members, records⟩ := initial_blackboard made
  exact ⟨built, bodies, made, members, records⟩

end Rehearsal

end ReactiveTree
