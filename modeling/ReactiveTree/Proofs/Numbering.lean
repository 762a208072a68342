import ReactiveTree.Proofs.Construction

/-!
The numbers that a build gives out. Nodes are numbered in the order in which the walk enters them, so
the ids of a subtree are a range that starts with its own id. That is why the node a wake is
addressed to lies below at most one child, and why `Tree.covers` finds it.
-/

namespace ReactiveTree

variable {H : Host}

/-- The ids count up from `start`, without a gap. -/
def Consecutive (start : Nat) (labels : List Label) : Prop :=
  labels.map Label.id = List.range' start labels.length

@[simp] theorem consecutive_nil (start : Nat) : Consecutive start [] := rfl

@[simp] theorem consecutive_cons {start : Nat} {label : Label} {labels : List Label} :
    Consecutive start (label :: labels) ↔ label.id = start ∧ Consecutive (start + 1) labels := by
  simp [Consecutive, List.range'_succ]

@[simp] theorem consecutive_append {start : Nat} {first rest : List Label} :
    Consecutive start (first ++ rest) ↔
      Consecutive start first ∧ Consecutive (start + first.length) rest := by
  induction first generalizing start with
  | nil => simp
  | cons label first ih =>
    have shifted : start + 1 + first.length = start + (first.length + 1) := by omega
    simp only [List.cons_append, consecutive_cons, ih, List.length_cons, shifted, and_assoc]

theorem Consecutive.mem {start : Nat} {labels : List Label} (counted : Consecutive start labels)
    {id : Nat} : id ∈ labels.map Label.id ↔ start ≤ id ∧ id < start + labels.length := by
  rw [counted]
  simp

theorem Consecutive.apart {start : Nat} {first rest : List Label}
    (counted : Consecutive start (first ++ rest)) {id : Nat}
    (member : id ∈ first.map Label.id) : id ∉ rest.map Label.id := by
  obtain ⟨left, right⟩ := consecutive_append.mp counted
  rw [left.mem] at member
  rw [right.mem]
  omega

theorem Consecutive.fresh {start : Nat} {label : Label} {labels : List Label}
    (counted : Consecutive start (label :: labels)) : label.id ∉ labels.map Label.id := by
  obtain ⟨rfl, below⟩ := consecutive_cons.mp counted
  rw [below.mem]
  omega

namespace Tree

theorem id_of_consecutive {tree : Tree H} {start : Nat} (counted : Consecutive start tree.labels) :
    tree.id = start := by
  cases tree <;> exact (consecutive_cons.mp counted).1

end Tree

mutual

theorem limit_of_consecutive : (tree : Tree H) → (start : Nat) → Consecutive start tree.labels →
    tree.limit = start + tree.labels.length
  | .relay _ label child, start, counted | .repeater label child, start, counted
  | .loop label _ child, start, counted | .gate label _ _ _ child, start, counted => by
    obtain ⟨rfl, below⟩ := consecutive_cons.mp counted
    have last := limit_of_consecutive child _ below
    simp only [Tree.limit, Tree.labels, List.length_cons]
    omega
  | .ordered _ label children, start, counted | .weighted label _ children, start, counted => by
    obtain ⟨rfl, below⟩ := consecutive_cons.mp counted
    have last := limits_of_consecutive children _ below
    simp only [Tree.limit, Tree.labels, List.length_cons]
    omega
  | .parallel label main background, start, counted => by
    obtain ⟨rfl, below⟩ := consecutive_cons.mp counted
    obtain ⟨left, right⟩ := consecutive_append.mp below
    have first := limit_of_consecutive main _ left
    have second := limit_of_consecutive background _ right
    simp only [Tree.limit, Tree.labels, List.length_cons, List.length_append]
    omega
  | .condition label _, start, counted | .action label _, start, counted => by
    obtain ⟨rfl, _⟩ := consecutive_cons.mp counted
    rfl

/-- An empty forest has the limit `0`, which no node before it can have. -/
theorem limits_of_consecutive : (trees : Forest H) → (start : Nat) →
    Consecutive start trees.labels → max start trees.limit = start + trees.labels.length
  | .nil, start, _ => by simp [Forest.limit, Forest.labels]
  | .cons tree trees, start, counted => by
    obtain ⟨head, tail⟩ := consecutive_append.mp counted
    have first := limit_of_consecutive tree _ head
    have rest := limits_of_consecutive trees _ tail
    simp only [Forest.limit, Forest.labels, List.length_append]
    omega

end

/-- A node covers its own id and those of its descendants, and no other. -/
theorem covers_iff_mem {tree : Tree H} {start : Nat} (counted : Consecutive start tree.labels)
    {id : Nat} : tree.covers id ↔ id ∈ tree.labels.map Label.id := by
  simp only [Tree.covers, Bool.and_eq_true, decide_eq_true_eq]
  rw [counted.mem, Tree.id_of_consecutive counted, limit_of_consecutive tree start counted]

theorem not_covers_of_own {child : Tree H} {label : Label} {start id : Nat}
    (counted : Consecutive start (label :: child.labels)) (own : id = label.id) :
    ¬ child.covers id := by
  obtain ⟨_, below⟩ := consecutive_cons.mp counted
  rw [covers_iff_mem below, own]
  exact counted.fresh

mutual

/-- Every node has a smaller id than the nodes below it, and no child covers an id of a later
sibling. Wakes find their way in a tree numbered like this, whether or not ids are left out. -/
def Tree.Numbered : Tree H → Prop
  | .relay _ label child | .repeater label child | .loop label _ child
  | .gate label _ _ _ child =>
    (∀ below ∈ child.labels.map Label.id, label.id < below) ∧ child.Numbered
  | .ordered _ label children | .weighted label _ children =>
    (∀ below ∈ children.labels.map Label.id, label.id < below) ∧ children.Numbered
  | .parallel label main background =>
    (∀ below ∈ main.labels.map Label.id ++ background.labels.map Label.id, label.id < below) ∧
      main.Numbered ∧ background.Numbered ∧
      ∀ beside ∈ background.labels.map Label.id, ¬ main.covers beside
  | .condition _ _ | .action _ _ => True

def Forest.Numbered : Forest H → Prop
  | .nil => True
  | .cons tree trees => tree.Numbered ∧ trees.Numbered ∧
      ∀ later ∈ trees.labels.map Label.id, ¬ tree.covers later

end

theorem Consecutive.below {start : Nat} {label : Label} {labels : List Label}
    (counted : Consecutive start (label :: labels)) :
    ∀ below ∈ labels.map Label.id, label.id < below := by
  obtain ⟨rfl, after⟩ := consecutive_cons.mp counted
  intro below member
  exact (after.mem.mp member).1

mutual

theorem Consecutive.numbered : {tree : Tree H} → {start : Nat} →
    Consecutive start tree.labels → tree.Numbered
  | .relay _ _ _, _, counted | .repeater _ _, _, counted | .loop _ _ _, _, counted
  | .gate _ _ _ _ _, _, counted =>
    ⟨counted.below, (consecutive_cons.mp counted).2.numbered⟩
  | .ordered _ _ _, _, counted | .weighted _ _ _, _, counted =>
    ⟨counted.below, (consecutive_cons.mp counted).2.numbered_all⟩
  | .parallel _ main background, _, counted => by
    obtain ⟨_, below⟩ := consecutive_cons.mp counted
    obtain ⟨left, right⟩ := consecutive_append.mp below
    refine ⟨?_, left.numbered, right.numbered, ?_⟩
    · rw [← List.map_append]
      exact counted.below
    · intro beside member covered
      exact below.apart ((covers_iff_mem left).mp covered) member
  | .condition _ _, _, _ | .action _ _, _, _ => trivial

theorem Consecutive.numbered_all : {trees : Forest H} → {start : Nat} →
    Consecutive start trees.labels → trees.Numbered
  | .nil, _, _ => trivial
  | .cons tree trees, _, counted => by
    obtain ⟨left, right⟩ := consecutive_append.mp counted
    refine ⟨left.numbered, right.numbered_all, ?_⟩
    intro later member covered
    exact counted.apart ((covers_iff_mem left).mp covered) member

end

mutual

theorem lt_limit_of_mem : (tree : Tree H) → {id : Nat} → id ∈ tree.labels.map Label.id →
    id < tree.limit
  | .relay _ label child, id, member | .repeater label child, id, member
  | .loop label _ child, id, member | .gate label _ _ _ child, id, member => by
    rw [Tree.limit]
    rcases List.mem_cons.mp member with rfl | below
    · omega
    · have inside := lt_limit_of_mem child below
      omega
  | .ordered _ label children, id, member | .weighted label _ children, id, member => by
    rw [Tree.limit]
    rcases List.mem_cons.mp member with rfl | below
    · omega
    · have inside := lt_limits_of_mem children below
      omega
  | .parallel label main background, id, member => by
    rw [Tree.limit]
    rcases List.mem_cons.mp member with rfl | below
    · omega
    · rw [List.map_append] at below
      rcases List.mem_append.mp below with left | right
      · have inside := lt_limit_of_mem main left
        omega
      · have inside := lt_limit_of_mem background right
        omega
  | .condition label _, id, member | .action label _, id, member => by
    obtain rfl := List.mem_singleton.mp member
    exact Nat.lt_succ_self _

theorem lt_limits_of_mem : (trees : Forest H) → {id : Nat} → id ∈ trees.labels.map Label.id →
    id < trees.limit
  | .nil, _, member => nomatch member
  | .cons tree trees, id, member => by
    rw [Forest.labels, List.map_append] at member
    rw [Forest.limit]
    rcases List.mem_append.mp member with left | right
    · have inside := lt_limit_of_mem tree left
      omega
    · have inside := lt_limits_of_mem trees right
      omega

end

namespace Tree.Numbered

variable {tree : Tree H}

theorem id_le (numbered : tree.Numbered) {id : Nat} (member : id ∈ tree.labels.map Label.id) :
    tree.id ≤ id := by
  cases tree with
  | relay | repeater | loop | gate | ordered | weighted =>
    rcases List.mem_cons.mp member with rfl | below
    · exact Nat.le_refl _
    · exact Nat.le_of_lt (numbered.1 _ below)
  | parallel =>
    rcases List.mem_cons.mp member with rfl | below
    · exact Nat.le_refl _
    · rw [List.map_append] at below
      exact Nat.le_of_lt (numbered.1 _ below)
  | condition | action => exact Nat.le_of_eq (List.mem_singleton.mp member).symm

theorem covers (numbered : tree.Numbered) {id : Nat} (member : id ∈ tree.labels.map Label.id) :
    tree.covers id := by
  simp only [Tree.covers, Bool.and_eq_true, decide_eq_true_eq]
  exact ⟨numbered.id_le member, lt_limit_of_mem tree member⟩

theorem not_covers {id : Nat} (before : ∀ below ∈ tree.labels.map Label.id, id < below) :
    ¬ tree.covers id := by
  have first : id < tree.id := before _ (by cases tree <;> exact List.mem_cons_self)
  simp only [Tree.covers, Bool.and_eq_true, decide_eq_true_eq]
  omega

end Tree.Numbered

mutual

theorem Tree.Numbered.distinct : {tree : Tree H} → tree.Numbered →
    (tree.labels.map Label.id).Nodup
  | .relay _ _ _, numbered | .repeater _ _, numbered | .loop _ _ _, numbered
  | .gate _ _ _ _ _, numbered =>
    List.nodup_cons.mpr
      ⟨fun member => Nat.lt_irrefl _ (numbered.1 _ member), numbered.2.distinct⟩
  | .ordered _ _ _, numbered | .weighted _ _ _, numbered =>
    List.nodup_cons.mpr
      ⟨fun member => Nat.lt_irrefl _ (numbered.1 _ member), numbered.2.distinct⟩
  | .parallel _ main background, numbered => by
    obtain ⟨below, left, right, beside⟩ := numbered
    rw [Tree.labels, List.map_cons, List.map_append, List.nodup_cons]
    refine ⟨fun member => Nat.lt_irrefl _ (below _ member), ?_⟩
    refine List.nodup_append.mpr ⟨left.distinct, right.distinct, ?_⟩
    rintro id here _ there rfl
    exact beside id there (left.covers here)
  | .condition _ _, _ | .action _ _, _ => List.pairwise_singleton _ _

theorem Forest.Numbered.distinct : {trees : Forest H} → trees.Numbered →
    (trees.labels.map Label.id).Nodup
  | .nil, _ => List.nodup_nil
  | .cons tree trees, numbered => by
    obtain ⟨first, rest, apart⟩ := numbered
    rw [Forest.labels, List.map_append]
    refine List.nodup_append.mpr ⟨first.distinct, rest.distinct, ?_⟩
    rintro id here _ there rfl
    exact apart id there (first.covers here)

end

theorem labels_ofList (trees : List (Tree H)) :
    (Forest.ofList trees).labels = trees.flatMap Tree.labels := by
  induction trees with
  | nil => rfl
  | cons tree trees ih => simp [Forest.ofList, Forest.labels, ih]

namespace Build

variable {build : Descriptor → Progress → Walk (Tree H × Progress)}

theorem Shapes.labels_eq {sources : Sources H} {kind : NodeKind} {label : Label} {params : Params}
    {children : List (Tree H)} {tree : Tree H}
    (shapes : Shapes sources label params kind children tree) :
    tree.labels = label :: children.flatMap Tree.labels := by
  cases shapes <;> simp [Tree.labels, labels_ofList]

/-- The walk numbers its nodes from the next number on and leaves no number out. -/
def Numbers (build : Descriptor → Progress → Walk (Tree H × Progress)) : Prop :=
  ∀ node progress tree after, build node progress = .ok (tree, after) →
    Consecutive progress.next tree.labels ∧ after.next = progress.next + tree.labels.length

theorem buildEach_numbers (numbers : Numbers build) {graph : Graph} {parent : String}
    {ids : List String} {progress after : Progress} {trees : List (Tree H)}
    (built : buildEach build graph parent ids progress = .ok (trees, after)) :
    Consecutive progress.next (trees.flatMap Tree.labels) ∧
      after.next = progress.next + (trees.flatMap Tree.labels).length := by
  induction ids generalizing progress trees with
  | nil =>
    cases built
    exact ⟨rfl, rfl⟩
  | cons id ids ih =>
    obtain ⟨node, tree, middle, rest, _, first, later, rfl⟩ := buildEach_cons_eq_ok.mp built
    obtain ⟨head, between⟩ := numbers node progress tree middle first
    obtain ⟨tail, last⟩ := ih later
    rw [between] at tail last
    constructor
    · exact consecutive_append.mpr ⟨head, tail⟩
    · rw [last, List.flatMap_cons, List.length_append, Nat.add_assoc]

theorem buildBody_numbers (numbers : Numbers build) {graph : Graph} {scope : String}
    {progress after : Progress} {tree : Tree H}
    (built : buildBody build graph scope progress = .ok (tree, after)) :
    Consecutive progress.next tree.labels ∧
      after.next = progress.next + tree.labels.length := by
  obtain ⟨root, id, child, board, inner, _, _, _, _, walked, rfl⟩ := buildBody_eq_ok.mp built
  have counted := numbers child _ tree inner walked
  exact counted

theorem buildNode_numbers (sources : Sources H) (depth : Nat) (graph : Graph)
    (opened : List String) (scope : String) :
    Numbers (buildNode sources depth graph opened scope) := by
  induction depth generalizing graph opened scope with
  | zero =>
    intro node progress tree after built
    cases built
  | succ depth ih =>
    intro node progress tree after built
    obtain ⟨_, kind, children, middle, _, counted, each, made⟩ := buildNode_eq_ok.mp built
    obtain ⟨below, between⟩ := buildEach_numbers (ih graph opened scope) each
    rcases made with ⟨_, rfl, shaped⟩ | ⟨rfl, body, names, inner, _, walked, rfl⟩
    · rw [(shape_eq_ok.mp shaped).labels_eq]
      refine ⟨consecutive_cons.mpr ⟨rfl, below⟩, ?_⟩
      rw [between, List.length_cons]
      exact Nat.add_right_comm _ _ _
    · -- a function node has no children, so its body takes the numbers right behind its own
      obtain ⟨rfl, rfl⟩ := buildEach_childless (of_decide_eq_true counted) each
      obtain ⟨inside, last⟩ := buildBody_numbers (ih body names _) walked
      refine ⟨consecutive_cons.mpr ⟨rfl, inside⟩, ?_⟩
      rw [last, Tree.labels, List.length_cons]
      exact Nat.add_right_comm _ _ _

end Build

/-- The nodes of a built tree are numbered from `0` on, in the order of `Tree.labels`. -/
theorem build_consecutive {sources : Build.Sources H} {graph : Graph} {built : Built H}
    (ok : build sources graph = .ok built) :
    Consecutive 0 built.tree.labels ∧ built.nodes = built.tree.labels.length := by
  obtain ⟨root, tree, progress, _, walked, rfl⟩ := build_eq_ok.mp ok
  obtain ⟨below, last⟩ := Build.buildBody_numbers (Build.buildNode_numbers sources _ graph [] "") walked
  refine ⟨consecutive_cons.mpr ⟨rfl, below⟩, ?_⟩
  rw [last, Tree.labels, List.length_cons, Nat.add_comm]

end ReactiveTree
