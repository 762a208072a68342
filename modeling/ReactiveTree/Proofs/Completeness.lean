import ReactiveTree.Proofs.Soundness

/-!
A well-formed graph is built. The walk comes to a node before it came to anything below the node,
since what it entered earlier lies beside the node or above it; so it never enters an id twice, and
no other check can fail.
-/

namespace ReactiveTree.Build

variable {H : Host} {α β : Type}

def Succeeds (good : α → Prop) : Walk α → Prop
  | .ok made => good made
  | .error (.error _) => False
  | .error .tooDeep => True

section Steps

variable {good : β → Prop}

theorem succeeds_bind {fine : α → Prop} {walk : Walk α} {next : α → Walk β}
    (first : Succeeds fine walk) (rest : ∀ made, fine made → Succeeds good (next made)) :
    Succeeds good (walk >>= next) := by
  match walk, first with
  | .ok made, first => exact rest made first
  | .error .tooDeep, _ => trivial

theorem succeeds_require {error : BuildError} {part : Option α} {found : α} {next : α → Walk β}
    (there : part = some found) (rest : Succeeds good (next found)) :
    Succeeds good (require error part >>= next) := by
  rw [there]
  exact rest

theorem succeeds_check {error : BuildError} {holds : Bool} {next : Unit → Walk β}
    (holding : holds = true) (rest : Succeeds good (next ())) :
    Succeeds good (check error holds >>= next) := by
  rw [holding]
  exact rest

theorem succeeds_lift {part : Except BuildError α} {found : α} {next : α → Walk β}
    (there : part = .ok found) (rest : Succeeds good (next found)) :
    Succeeds good (lift part >>= next) := by
  rw [there]
  exact rest

end Steps

variable {sources : Sources H} {knows : String → ValueKind → Prop} {body : Body}
  {build : Descriptor → Progress → Walk (Tree H × Progress)}

def Known (knows : String → ValueKind → Prop) (board : Blackboard) : Prop :=
  ∀ name kind, board.Knows name kind → knows name kind

/-- The walk of a node comes back from any state in which nothing below the node was entered, and
enters nothing else. -/
def Completes (knows : String → ValueKind → Prop) (body : Body)
    (build : Descriptor → Progress → Walk (Tree H × Progress)) : Prop :=
  ∀ node progress, body.graph.find? node.id = some node → Reached body.graph node.id →
    (∀ id, Below body.graph node.id id → id ∉ progress.entered) →
    Known knows progress.blackboard →
    Succeeds (fun made => Known knows made.2.blackboard ∧
      ∀ id ∈ made.2.entered, id ∈ progress.entered ∨ Below body.graph node.id id)
      (build node progress)

theorem buildEach_completes (completes : Completes knows body build)
    (wellFormed : WellFormedBody sources body) (parent : String) {ids : List String}
    (reached : ∀ id ∈ ids, Reached body.graph id)
    (apart : ids.Pairwise fun first second =>
      ∀ id, Below body.graph first id → ¬ Below body.graph second id) (progress : Progress)
    (fresh : ∀ above ∈ ids, ∀ id, Below body.graph above id → id ∉ progress.entered)
    (known : Known knows progress.blackboard) :
    Succeeds (fun made => made.1.length = ids.length ∧ Known knows made.2.blackboard ∧
      ∀ id ∈ made.2.entered, id ∈ progress.entered ∨ ∃ above ∈ ids, Below body.graph above id)
      (buildEach build body.graph parent ids progress) := by
  induction ids generalizing progress with
  | nil => exact ⟨rfl, known, fun id member => .inl member⟩
  | cons first rest ih =>
    obtain ⟨here, reachedRest⟩ := List.forall_mem_cons.mp reached
    obtain ⟨beside, apartRest⟩ := List.pairwise_cons.mp apart
    obtain ⟨freshFirst, freshRest⟩ := List.forall_mem_cons.mp fresh
    obtain ⟨node, found⟩ := wellFormed.resolves first here
    obtain rfl := id_of_find found
    rw [buildEach]
    apply succeeds_require found
    apply succeeds_bind (completes node progress found here freshFirst known)
    rintro ⟨tree, middle⟩ ⟨knownMiddle, entered⟩
    -- what the first walk entered lies below its own node, and nothing of that below the others
    have later : ∀ above ∈ rest, ∀ id, Below body.graph above id → id ∉ middle.entered := by
      intro above member id below visited
      rcases entered id visited with before | inside
      · exact freshRest above member id below before
      · exact beside above member id inside below
    apply succeeds_bind (ih reachedRest apartRest middle later knownMiddle)
    rintro ⟨trees, after⟩ ⟨counted, knownAfter, visited⟩
    refine ⟨congrArg (· + 1) counted, knownAfter, ?_⟩
    intro id member
    rcases visited id member with before | ⟨above, listed, below⟩
    · rcases entered id before with before | below
      · exact .inl before
      · exact .inr ⟨node.id, List.mem_cons_self, below⟩
    · exact .inr ⟨above, List.mem_cons_of_mem _ listed, below⟩

theorem buildBody_completes (completes : Completes knows body build)
    (unique : ∀ name kind kind', knows name kind → knows name kind' → kind = kind')
    (accepted : Accepted sources knows body) (scope : String) (progress : Progress)
    (known : Known knows progress.blackboard) :
    Succeeds (fun made => Known knows made.2.blackboard ∧ made.2.entered = progress.entered)
      (buildBody build body.graph scope progress) := by
  obtain ⟨wellFormed, seeded⟩ := accepted body .refl
  obtain ⟨root, id, rooted, single⟩ := wellFormed.rooted
  have reached : Reached body.graph id := .root rooted (by rw [single]; exact List.mem_cons_self)
  obtain ⟨child, found⟩ := wellFormed.resolves id reached
  obtain rfl := id_of_find found
  obtain ⟨board, declared, knownBoard⟩ := declareAll_complete unique wellFormed.declares
    (fun declared member kind kinded valued =>
      seeded declared.name kind ⟨declared, member, rfl, kinded, valued⟩) known
  rw [buildBody]
  apply succeeds_check (by rw [isEmpty_of_root rooted]; rfl)
  apply succeeds_require rooted
  apply succeeds_lift declared
  rw [single]
  apply succeeds_require found
  -- a body starts with nothing entered but its root descriptor
  have fresh : ∀ id, Below body.graph child.id id → id ∉ [root.id] := by
    intro id below member
    rw [List.mem_singleton.mp member] at below
    exact wellFormed.root_not_below rooted reached below
  apply succeeds_bind (completes child ⟨progress.next, board, [root.id]⟩ found reached fresh knownBoard)
  rintro ⟨tree, inner⟩ ⟨knownInner, _⟩
  exact ⟨knownInner, rfl⟩

theorem buildNode_completes
    (unique : ∀ name kind kind', knows name kind → knows name kind' → kind = kind') (depth : Nat)
    (body : Body) (accepted : Accepted sources knows body) (scope : String) :
    Completes knows body (buildNode sources depth body.graph body.opened scope) := by
  induction depth generalizing body scope with
  | zero =>
    intro node progress _ _ _ _
    exact trivial
  | succ depth ih =>
    intro node progress found reached fresh known
    have wellFormed := (accepted body .refl).1
    obtain ⟨kind, parsed, fits⟩ := wellFormed.fits node.id node reached found
    have step {id : String} (listed : id ∈ node.children) : Step body.graph node.id id :=
      ⟨reached, node, found, listed⟩
    rw [buildNode]
    apply succeeds_check (by simpa using fresh node.id .refl)
    apply succeeds_require parsed
    apply succeeds_check fits.counted
    -- the node itself is entered now, but it lies below none of its children
    have below : ∀ above ∈ node.children, ∀ id, Below body.graph above id →
        id ∉ node.id :: progress.entered := by
      intro above listed id under member
      rcases List.mem_cons.mp member with rfl | member
      · exact wellFormed.not_below_parent (step listed) under
      · exact fresh id (.head (step listed) under) member
    apply succeeds_bind (buildEach_completes (ih body accepted scope) wellFormed
      (keyIn scope node.id) (fun id listed => (step listed).reached)
      (wellFormed.siblings_apart reached found)
      { progress with next := progress.next + 1, entered := node.id :: progress.entered } below
      known)
    rintro ⟨children, middle⟩ ⟨counted, knownMiddle, visited⟩
    have entered : ∀ id ∈ middle.entered, id ∈ progress.entered ∨ Below body.graph node.id id := by
      intro id member
      rcases visited id member with member | ⟨above, listed, under⟩
      · rcases List.mem_cons.mp member with rfl | before
        · exact .inr .refl
        · exact .inl before
      · exact .inr (.head (step listed) under)
    dsimp only at counted knownMiddle ⊢
    by_cases function : kind = .functionNode
    · obtain ⟨inner, names, opens⟩ := fits.expands function
      have inside : Enters sources.library body ⟨inner, names⟩ :=
        ⟨node.id, node, reached, found, function ▸ parsed, opens⟩
      have acceptedInner : Accepted sources knows ⟨inner, names⟩ :=
        fun deeper expanded => accepted deeper (.head inside expanded)
      have walked := buildBody_completes
        (ih ⟨inner, names⟩ acceptedInner (keyIn scope node.id)) unique acceptedInner
        (keyIn scope node.id) middle knownMiddle
      rw [if_pos function]
      generalize node.params.subtree = subtree at opens
      cases opens with
      | inline =>
        apply succeeds_bind walked
        rintro ⟨tree, after⟩ ⟨knownAfter, same⟩
        exact ⟨knownAfter, same ▸ entered⟩
      | named closed there =>
        apply succeeds_check (by simpa using closed)
        apply succeeds_require there
        apply succeeds_bind walked
        rintro ⟨tree, after⟩ ⟨knownAfter, same⟩
        exact ⟨knownAfter, same ▸ entered⟩
    · obtain ⟨tree, shapes⟩ := (exists_shapes counted fits.counted function).mpr fits
      rw [if_neg function]
      apply succeeds_lift (shape_eq_ok.mpr shapes)
      exact ⟨knownMiddle, entered⟩

/-- The kinds that the variables of the expanded bodies are declared with. -/
def DeclaredKind (library : Library) (graph : Graph) (name : String) (kind : ValueKind) : Prop :=
  ∃ body, Expanded library ⟨graph, []⟩ body ∧ Seeds body name kind

theorem build_of_wellFormed {graph : Graph} (wellFormed : WellFormed sources graph) :
    ∃ built, ReactiveTree.build sources graph = .ok built := by
  have unique : ∀ name kind kind', DeclaredKind sources.library graph name kind →
      DeclaredKind sources.library graph name kind' → kind = kind' := by
    rintro name kind kind' ⟨body, expanded, seeds⟩ ⟨body', expanded', seeds'⟩
    exact wellFormed.agree body body' name kind kind' expanded expanded' seeds seeds'
  have accepted : Accepted sources (DeclaredKind sources.library graph) ⟨graph, []⟩ := by
    intro body expanded
    exact ⟨wellFormed.bodies body expanded, fun name kind seeds => ⟨body, expanded, seeds⟩⟩
  have empty : Known (DeclaredKind sources.library graph) {} := by
    intro name kind there
    cases there
  have walked := buildBody_completes
    (buildNode_completes unique (levels sources.library graph) ⟨graph, []⟩ accepted "")
    unique accepted "" ⟨1, {}, []⟩ empty
  obtain ⟨root, _, rooted, _⟩ := (wellFormed.bodies _ .refl).rooted
  match made : walk sources graph with
  | .ok (tree, progress) => exact ⟨_, build_eq_ok.mpr ⟨root, tree, progress, rooted, made, rfl⟩⟩
  | .error (.error _) =>
    unfold walk at made
    rw [made] at walked
    exact walked.elim
  | .error .tooDeep => exact (walk_ne_tooDeep sources graph made).elim

/-- A graph is built exactly if it is well-formed. -/
theorem build_iff_wellFormed (sources : Sources H) (graph : Graph) :
    (∃ built, ReactiveTree.build sources graph = .ok built) ↔ WellFormed sources graph := by
  constructor
  · rintro ⟨built, ok⟩
    exact wellFormed_of_build ok
  · exact build_of_wellFormed

end ReactiveTree.Build
