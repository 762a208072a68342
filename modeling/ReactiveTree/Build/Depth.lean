import ReactiveTree.Build.Body

/-!
How deep a build can go. Below a descriptor the walk enters only descriptors of the same body that
it has not entered yet, bodies written inside the graph, and library graphs that are not open. So
the number of descriptors in the graph and in the library bounds the depth, and a walk given that
much room never ends for want of it.
-/

namespace ReactiveTree

mutual

def Graph.weight : Graph → Nat
  | ⟨_, nodes⟩ => nodesWeight nodes
  termination_by structural graph => graph

def nodesWeight : List Descriptor → Nat
  | [] => 0
  | node :: nodes => node.weight + nodesWeight nodes
  termination_by structural nodes => nodes

def Descriptor.weight : Descriptor → Nat
  | ⟨_, _, _, params⟩ => 1 + params.weight
  termination_by structural node => node

def Params.weight : Params → Nat
  | ⟨_, _, _, _, _, _, subtree⟩ => subtreeWeight subtree
  termination_by structural params => params

def subtreeWeight : Option Subtree → Nat
  | none => 0
  | some subtree => subtree.weight
  termination_by structural subtree => subtree

def Subtree.weight : Subtree → Nat
  | .inline graph => graph.weight
  | .named _ => 0
  termination_by structural subtree => subtree

end

namespace Build

variable {H : Host}

def entriesWeight (opened : List String) : List (String × Graph) → Nat
  | [] => 0
  | (name, graph) :: entries =>
    if name ∈ opened then entriesWeight opened entries
    else graph.weight + entriesWeight opened entries

def closedWeight (library : Library) (opened : List String) : Nat :=
  entriesWeight opened library.entries

def innerWeight : List Descriptor → Nat
  | [] => 0
  | node :: nodes => node.params.weight + innerWeight nodes

def fresh (nodes : List Descriptor) (entered : List String) : Nat :=
  nodes.countP fun node => !entered.contains node.id

/-- Levels that can still be entered below a node of the body. -/
def room (library : Library) (graph : Graph) (opened entered : List String) : Nat :=
  fresh graph.nodes entered + innerWeight graph.nodes + closedWeight library opened

theorem weight_eq (graph : Graph) :
    graph.weight = graph.nodes.length + innerWeight graph.nodes := by
  have split (nodes : List Descriptor) : nodesWeight nodes = nodes.length + innerWeight nodes := by
    induction nodes with
    | nil => rfl
    | cons node nodes ih =>
      cases node
      simp only [nodesWeight, Descriptor.weight, innerWeight, List.length_cons, ih]
      omega
  cases graph
  simp only [Graph.weight, split]

theorem inner_le {nodes : List Descriptor} {node : Descriptor} (member : node ∈ nodes) :
    node.params.weight ≤ innerWeight nodes := by
  induction nodes with
  | nil => simp at member
  | cons first rest ih =>
    simp only [innerWeight]
    rcases List.mem_cons.1 member with here | later
    · subst here; omega
    · have := ih later; omega

theorem fresh_le {nodes : List Descriptor} {before after : List String} (grown : before ⊆ after) :
    fresh nodes after ≤ fresh nodes before := by
  apply List.countP_mono_left
  intro node _ absent
  simp only [Bool.not_eq_true', List.contains_eq_mem, decide_eq_false_iff_not] at absent ⊢
  exact fun old => absent (grown old)

theorem fresh_lt {nodes : List Descriptor} {node : Descriptor} {entered : List String}
    (member : node ∈ nodes) (absent : node.id ∉ entered) :
    fresh nodes (node.id :: entered) < fresh nodes entered := by
  induction nodes with
  | nil => simp at member
  | cons first rest ih =>
    have tail : fresh rest (node.id :: entered) ≤ fresh rest entered :=
      fresh_le (List.subset_cons_self _ _)
    unfold fresh at tail ih ⊢
    rw [List.countP_cons, List.countP_cons]
    rcases List.mem_cons.1 member with here | later
    · have before : (!entered.contains first.id) = true := by simpa [← here] using absent
      have after : (!(node.id :: entered).contains first.id) = false := by simp [here]
      rw [before, after]
      simp only [if_true, Bool.false_eq_true, if_false]
      omega
    · have shorter := ih later
      have head : (if (!(node.id :: entered).contains first.id) = true then 1 else 0) ≤
          (if (!entered.contains first.id) = true then 1 else 0) := by
        by_cases old : first.id ∈ entered
        · simp [old]
        · by_cases same : first.id = node.id <;> simp [old, same]
      omega

theorem fresh_le_length (nodes : List Descriptor) (entered : List String) :
    fresh nodes entered ≤ nodes.length :=
  List.countP_le_length

theorem closed_lt {library : Library} {opened : List String} {name : String} {graph : Graph}
    (absent : name ∉ opened) (found : library.get? name = some graph) :
    graph.weight + closedWeight library (name :: opened) ≤ closedWeight library opened := by
  unfold Library.get? at found
  unfold closedWeight
  generalize library.entries = entries at found
  have shrinks (entries : List (String × Graph)) :
      entriesWeight (name :: opened) entries ≤ entriesWeight opened entries := by
    induction entries with
    | nil => exact Nat.le_refl _
    | cons entry rest ih =>
      by_cases old : entry.1 ∈ opened
      · simpa [entriesWeight, old] using ih
      · by_cases same : entry.1 = name
        · simp [entriesWeight, same, absent]; omega
        · simpa [entriesWeight, old, same] using ih
  induction entries with
  | nil => simp at found
  | cons entry rest ih =>
    obtain ⟨key, value⟩ := entry
    rw [List.lookup_cons] at found
    by_cases same : key = name
    · have here : value = graph := by simpa [same] using found
      have := shrinks rest
      simp only [entriesWeight, same, absent, here, List.mem_cons, true_or, ↓reduceIte]
      omega
    · have apart : (name == key) = false := by simpa using fun h => same h.symm
      have later := ih (by simpa [apart] using found)
      by_cases old : key ∈ opened
      · simpa [entriesWeight, old] using later
      · simp only [entriesWeight, old, same, List.mem_cons, or_self, ↓reduceIte]
        omega

/-- A walk that did not go too deep and forgot no id it had entered. -/
def Settled {α : Type} (entered : List String) : Walk (α × Progress) → Prop
  | .ok (_, progress) => entered ⊆ progress.entered
  | .error (.error _) => True
  | .error .tooDeep => False

theorem settled_bind {α β : Type} {few many : List String} {walk : Walk (α × Progress)}
    {next : α × Progress → Walk (β × Progress)} (settled : Settled many walk)
    (then_ : ∀ part progress, many ⊆ progress.entered → Settled few (next (part, progress))) :
    Settled few (walk >>= next) := by
  match walk, settled with
  | .ok (part, progress), kept => exact then_ part progress kept
  | .error (.error _), _ => trivial

theorem settled_require {α β : Type} {entered : List String} {error : BuildError}
    {part : Option α} {next : α → Walk (β × Progress)}
    (then_ : ∀ found, part = some found → Settled entered (next found)) :
    Settled entered (require error part >>= next) := by
  match part, then_ with
  | some found, then_ => exact then_ found rfl
  | none, _ => trivial

theorem settled_lift {α β : Type} {entered : List String} {part : Except BuildError α}
    {next : α → Walk (β × Progress)} (then_ : ∀ found, Settled entered (next found)) :
    Settled entered (lift part >>= next) := by
  match part with
  | .ok found => exact then_ found
  | .error _ => trivial

theorem settled_check {β : Type} {entered : List String} {error : BuildError} {holds : Bool}
    {next : Unit → Walk (β × Progress)}
    (then_ : holds = true → Settled entered (next ())) :
    Settled entered (check error holds >>= next) := by
  match holds, then_ with
  | true, then_ => exact then_ rfl
  | false, _ => trivial

theorem buildEach_settled {build : Descriptor → Progress → Walk (Tree H × Progress)}
    {graph : Graph} {parent : String} {start : List String}
    (each : ∀ node ∈ graph.nodes, ∀ progress : Progress, start ⊆ progress.entered →
      Settled progress.entered (build node progress))
    (ids : List String) (progress : Progress) (kept : start ⊆ progress.entered) :
    Settled progress.entered (buildEach build graph parent ids progress) := by
  induction ids generalizing progress with
  | nil => exact List.Subset.refl _
  | cons id ids ih =>
    unfold buildEach
    refine settled_require fun node found => ?_
    have member : node ∈ graph.nodes := List.mem_of_find?_eq_some found
    refine settled_bind (each node member progress kept) fun tree first grown => ?_
    refine settled_bind (ih first (List.Subset.trans kept grown)) fun trees last wide => ?_
    exact List.Subset.trans grown wide

theorem buildBody_settled {build : Descriptor → Progress → Walk (Tree H × Progress)}
    {graph : Graph} {scope : String} {progress : Progress}
    (each : ∀ root ∈ graph.nodes, ∀ node ∈ graph.nodes, ∀ inner : Progress,
      inner.entered = [root.id] → Settled inner.entered (build node inner)) :
    Settled progress.entered (buildBody build graph scope progress) := by
  unfold buildBody
  refine settled_check fun _ => settled_require fun root rooted => settled_lift fun board => ?_
  have rootMember : root ∈ graph.nodes := List.mem_of_find?_eq_some rooted
  split
  · refine settled_require fun child found => ?_
    have member : child ∈ graph.nodes := List.mem_of_find?_eq_some found
    have built := each root rootMember child member ⟨progress.next, board, [root.id]⟩ rfl
    revert built
    match build child ⟨progress.next, board, [root.id]⟩ with
    | .ok _ => exact fun _ => List.Subset.refl _
    | .error (.error _) => exact fun _ => trivial
    | .error .tooDeep => exact fun impossible => impossible
  · trivial

theorem buildNode_settled (sources : Sources H) (depth : Nat) (graph : Graph)
    (opened : List String) (scope : String) (node : Descriptor) (progress : Progress)
    (member : node ∈ graph.nodes)
    (deep : room sources.library graph opened progress.entered < depth) :
    Settled progress.entered (buildNode sources depth graph opened scope node progress) := by
  induction depth generalizing graph opened scope node progress with
  | zero => omega
  | succ depth ih =>
    unfold buildNode
    refine settled_check fun absent => ?_
    have absent : node.id ∉ progress.entered := by simpa using absent
    refine settled_require fun kind _ => settled_check fun _ => ?_
    have less := fresh_lt member absent
    have within : ∀ inner : Progress, node.id :: progress.entered ⊆ inner.entered →
        room sources.library graph opened inner.entered < depth := by
      intro inner grown
      have : fresh graph.nodes inner.entered ≤ fresh graph.nodes (node.id :: progress.entered) :=
        fresh_le grown
      unfold room at deep ⊢
      omega
    have each (child : Descriptor) (at_ : child ∈ graph.nodes) (inner : Progress)
        (grown : node.id :: progress.entered ⊆ inner.entered) :
        Settled inner.entered (buildNode sources depth graph opened scope child inner) :=
      ih graph opened scope child inner at_ (within inner grown)
    refine settled_bind (buildEach_settled each node.children _ (List.Subset.refl _))
      fun children after grown => ?_
    have grown : progress.entered ⊆ after.entered :=
      List.Subset.trans (List.subset_cons_self _ _) grown
    have body (inner : Graph) (names : List String) (key : String)
        (fits : inner.weight + closedWeight sources.library names < depth + 1) :
        Settled after.entered
          (buildBody (buildNode sources depth inner names key) inner key after) := by
      refine buildBody_settled fun root rootMember child at_ start entered => ?_
      refine ih inner names key child start at_ ?_
      have first : fresh inner.nodes [root.id] < fresh inner.nodes [] :=
        fresh_lt rootMember (by simp)
      have all := fresh_le_length inner.nodes []
      rw [weight_eq] at fits
      unfold room
      rw [entered]
      omega
    have outer := inner_le member
    dsimp only
    split
    · split
      · trivial
      · rename_i inner subtree
        refine settled_bind (body inner opened _ ?_) fun tree last wide => ?_
        · have : node.params.weight = inner.weight := by
            revert subtree
            cases node.params
            intro subtree
            simp only at subtree
            subst subtree
            rfl
          unfold room at deep
          omega
        · exact List.Subset.trans grown wide
      · rename_i name subtree
        refine settled_check fun closed => settled_require fun inner found => ?_
        have closed : name ∉ opened := by simpa using closed
        refine settled_bind (body inner (name :: opened) _ ?_) fun tree last wide => ?_
        · have := closed_lt closed found
          unfold room at deep
          omega
        · exact List.Subset.trans grown wide
    · exact settled_lift fun tree => grown

end Build

end ReactiveTree
