import ReactiveTree.Proofs.Descent
import ReactiveTree.Proofs.Footprint

/-!
Following one node through the calls of its tree. Only calls of the node itself change its state and
what the journal says of it and of the nodes below it, so what every call of the node keeps, and
what the doings of others do not touch, is kept by every call of the tree. A wake comes to the node
before the tree does anything else. The parts that a call does not work on stand beside those that
it does, and are only carried along.
-/

namespace ReactiveTree

variable {H : Host}

/-- What is kept when the node with the id is activated or stopped, whatever the nodes that have
none of the ids do in between. -/
structure Follows (id : Nat) (ids : List Nat) (holds : Part H → Context H → Prop) : Prop where
  quiet : ∀ {part cx cx'}, holds part cx → cx'.amid ids = cx.amid ids →
    cx.agenda.Grows cx'.agenda → holds part cx'
  activate : ∀ {tree : Tree H} {live : Live H tree} {cx : Context H}, tree.id = id →
    id ∉ tree.labels.tail.map Label.id → holds ⟨tree, live⟩ cx →
    holds ⟨tree, (evaluate tree live cx).live⟩ (evaluate tree live cx).cx
  halt : ∀ {tree : Tree H} {live : Live H tree} {cx : Context H}, tree.id = id →
    id ∉ tree.labels.tail.map Label.id → holds ⟨tree, live⟩ cx →
    holds ⟨tree, (stop tree live cx).live⟩ (stop tree live cx).cx

/-- What a wake makes of the node with the id, whether it comes to the node or not. -/
structure Delivers (id : Nat) (wake : Wake) (before after : Part H → Context H → Prop) : Prop where
  heard : ∀ {tree : Tree H} {live : Live H tree} {cx : Context H}, tree.id = id →
    id ∉ tree.labels.tail.map Label.id → before ⟨tree, live⟩ cx →
    after ⟨tree, (resume wake tree live cx).live⟩ (resume wake tree live cx).cx
  unheard : ∀ {part cx}, before part cx → part.tree.id = id →
    wake.node ∉ part.tree.labels.map Label.id → after part cx

structure Persists (id : Nat) (ids : List Nat) (holds : Part H → Context H → Prop) : Prop extends
    Follows id ids holds where
  deliver : ∀ wake, Delivers id wake holds holds
  advance : ∀ {part cx} (delta : Nat), holds part cx →
    holds part { cx with agenda := (cx.agenda.advance delta).2 }

/-- Just one of the parts has the id, and of that one it holds. -/
def Tracked (id : Nat) (holds : Part H → Context H → Prop) (parts : List (Part H))
    (cx : Context H) : Prop :=
  ∃ part, parts.filter (·.tree.id = id) = [part] ∧ holds part cx

section Parts

variable {tree : Tree H} (live : Live H tree)

theorem parts_ids : live.parts.map (·.tree.id) = tree.labels.map Label.id := by
  rw [← parts_labels live, List.map_map]
  rfl

theorem id_mem_labels (tree : Tree H) : tree.id ∈ tree.labels.map Label.id := by
  cases tree <;> exact List.mem_cons_self

theorem parts_eq_cons : live.parts = ⟨tree, live⟩ :: live.parts.tail := by
  cases live <;> rfl

theorem parts_tail_ids : live.parts.tail.map (·.tree.id) = tree.labels.tail.map Label.id := by
  rw [List.map_tail, parts_ids, List.map_tail]

theorem filter_parts_eq_nil {parts : List (Part H)} {id : Nat} :
    parts.filter (·.tree.id = id) = [] ↔ id ∉ parts.map (·.tree.id) := by
  simp only [List.filter_eq_nil_iff, decide_eq_true_eq, List.mem_map, not_exists, not_and]

theorem filter_parts_eq_singleton (distinct : (tree.labels.map Label.id).Nodup)
    {live : Live H tree} {part : Part H} (member : part ∈ live.parts) :
    live.parts.filter (·.tree.id = part.tree.id) = [part] := by
  rw [← parts_ids live] at distinct
  apply List.perm_singleton.mp
  apply (List.perm_ext_iff_of_nodup (distinct.of_map.filter _) (List.nodup_singleton part)).mpr
  intro other
  simp only [List.mem_filter, decide_eq_true_eq, List.mem_singleton]
  constructor
  · rintro ⟨here, same⟩
    exact List.inj_on_of_nodup_map distinct here member same
  · rintro rfl
    exact ⟨member, rfl⟩

end Parts

mutual

/-- Going down the tree one comes to the node with the id before any other that has one of the
ids. -/
def Tree.Clears (id : Nat) (ids : List Nat) : Tree H → Prop
  | .relay _ label child | .repeater label child | .loop label _ child
  | .gate label _ _ _ child => label.id = id ∨ label.id ∉ ids ∧ child.Clears id ids
  | .ordered _ label children | .weighted label _ children =>
    label.id = id ∨ label.id ∉ ids ∧ children.Clears id ids
  | .parallel label main background =>
    label.id = id ∨ label.id ∉ ids ∧ main.Clears id ids ∧ background.Clears id ids
  | .condition label _ | .action label _ => label.id = id ∨ label.id ∉ ids

def Forest.Clears (id : Nat) (ids : List Nat) : Forest H → Prop
  | .nil => True
  | .cons tree trees => tree.Clears id ids ∧ trees.Clears id ids

end

section Clear

variable {id : Nat} {ids : List Nat}

mutual

theorem clears_of_apart : (tree : Tree H) →
    (∀ other ∈ tree.labels.map Label.id, other = id ∨ other ∉ ids) → tree.Clears id ids
  | .relay _ _ child, apart | .repeater _ child, apart | .loop _ _ child, apart
  | .gate _ _ _ _ child, apart => by
    obtain ⟨here, below⟩ := List.forall_mem_cons.mp apart
    exact here.imp_right fun outside => ⟨outside, clears_of_apart child below⟩
  | .ordered _ _ children, apart | .weighted _ _ children, apart => by
    obtain ⟨here, below⟩ := List.forall_mem_cons.mp apart
    exact here.imp_right fun outside => ⟨outside, clears_of_apart_all children below⟩
  | .parallel _ main background, apart => by
    rw [Tree.labels, List.map_cons, List.map_append, List.forall_mem_cons,
      List.forall_mem_append] at apart
    obtain ⟨here, left, right⟩ := apart
    exact here.imp_right fun outside =>
      ⟨outside, clears_of_apart main left, clears_of_apart background right⟩
  | .condition label _, apart | .action label _, apart =>
    apart label.id (List.mem_singleton_self _)

theorem clears_of_apart_all : (trees : Forest H) →
    (∀ other ∈ trees.labels.map Label.id, other = id ∨ other ∉ ids) → trees.Clears id ids
  | .nil, _ => trivial
  | .cons tree trees, apart => by
    rw [Forest.labels, List.map_append, List.forall_mem_append] at apart
    exact ⟨clears_of_apart tree apart.1, clears_of_apart_all trees apart.2⟩

end

theorem clears_singleton (id : Nat) (tree : Tree H) : tree.Clears id [id] :=
  clears_of_apart tree fun other _ => by
    rw [List.mem_singleton]
    exact Decidable.em _

theorem nodes_subset {tree node : Tree H} (member : node ∈ tree.nodes) :
    node.nodes ⊆ tree.nodes := by
  refine forall_nodes (fun node => node.nodes ⊆ tree.nodes) ?_ tree (List.Subset.refl _) node member
  intro above sub child below
  refine List.Subset.trans (fun other there => ?_) sub
  rw [nodes_children above]
  exact List.mem_cons_of_mem _ (List.mem_flatMap.mpr ⟨child, below, there⟩)

theorem ids_subset {tree node : Tree H} (member : node ∈ tree.nodes) :
    node.labels.map Label.id ⊆ tree.labels.map Label.id := by
  rw [← nodes_ids, ← nodes_ids]
  exact List.map_subset Tree.id (nodes_subset member)

theorem ids_subset_all {trees : Forest H} {node : Tree H} (member : node ∈ trees.nodes) :
    node.labels.map Label.id ⊆ trees.labels.map Label.id := by
  induction trees with
  | nil => cases member
  | cons tree trees ih =>
    rw [Forest.labels, List.map_append]
    rcases List.mem_append.mp member with here | later
    · exact List.Subset.trans (ids_subset here) (List.subset_append_left _ _)
    · exact List.Subset.trans (ih later) (List.subset_append_right _ _)

mutual

/-- With the ids of all that stands below it, a node is still the first that one comes to. -/
theorem clears_of_mem {node : Tree H} : (tree : Tree H) → tree.Numbered → node ∈ tree.nodes →
    tree.Clears node.id (node.labels.map Label.id)
  | .relay _ _ child, numbered, member | .repeater _ child, numbered, member
  | .loop _ _ child, numbered, member | .gate _ _ _ _ child, numbered, member => by
    rcases List.mem_cons.mp member with rfl | below
    · exact .inl rfl
    · exact .inr ⟨fun inside => Nat.lt_irrefl _ (numbered.1 _ (ids_subset below inside)),
        clears_of_mem child numbered.2 below⟩
  | .ordered _ _ children, numbered, member | .weighted _ _ children, numbered, member => by
    rcases List.mem_cons.mp member with rfl | below
    · exact .inl rfl
    · exact .inr ⟨fun inside => Nat.lt_irrefl _ (numbered.1 _ (ids_subset_all below inside)),
        clears_of_mem_all children numbered.2 below⟩
  | .parallel _ main background, numbered, member => by
    obtain ⟨before, left, right, beside⟩ := numbered
    rcases List.mem_cons.mp member with rfl | below
    · exact .inl rfl
    rcases List.mem_append.mp below with inside | inside
    · refine .inr ⟨fun own => Nat.lt_irrefl _
        (before _ (List.mem_append_left _ (ids_subset inside own))),
        clears_of_mem main left inside, clears_of_apart background fun other there => .inr ?_⟩
      exact fun own => beside other there (left.covers (ids_subset inside own))
    · refine .inr ⟨fun own => Nat.lt_irrefl _
        (before _ (List.mem_append_right _ (ids_subset inside own))),
        clears_of_apart main fun other there => .inr ?_, clears_of_mem background right inside⟩
      exact fun own => beside other (ids_subset inside own) (left.covers there)
  | .condition _ _, _, member | .action _ _, _, member => by
    cases List.mem_singleton.mp member
    exact .inl rfl

theorem clears_of_mem_all {node : Tree H} : (trees : Forest H) → trees.Numbered →
    node ∈ trees.nodes → trees.Clears node.id (node.labels.map Label.id)
  | .nil, _, _ => trivial
  | .cons tree trees, numbered, member => by
    obtain ⟨first, rest, apart⟩ := numbered
    rcases List.mem_append.mp member with inside | inside
    · refine ⟨clears_of_mem tree first inside, clears_of_apart_all trees fun other there => .inr ?_⟩
      exact fun own => apart other there (first.covers (ids_subset inside own))
    · refine ⟨clears_of_apart tree fun other there => .inr ?_, clears_of_mem_all trees rest inside⟩
      exact fun own => apart other (ids_subset_all inside own) (first.covers there)

end

end Clear

section Tasks

def Live.task? {tree : Tree H} : Live H tree → Option Nat
  | .repeater _ deferred _ => deferred
  | .loop _ timer _ => timer
  | .gate _ _ timer _ _ => timer
  | .action _ _ task => task
  | _ => none

def Tree.takesTasks : Tree H → Bool
  | .repeater _ _ | .loop _ _ _ | .gate _ _ _ _ _ | .action _ _ => true
  | _ => false

def Tree.takesTimers : Tree H → Bool
  | .loop _ _ _ | .gate _ _ _ _ _ => true
  | _ => false

theorem task?_eq_none {tree : Tree H} (never : tree.takesTasks = false) (live : Live H tree) :
    live.task? = none := by
  cases live with
  | repeater | loop | gate | action => cases never
  | _ => rfl

def Part.holds (part : Part H) : List Handle :=
  part.tree.label.holds part.tree.takesTimers part.live.task?

mutual

theorem handles_eq : {tree : Tree H} → (live : Live H tree) →
    live.handles = live.parts.flatMap Part.holds
  | _, .relay _ kid => handles_eq kid
  | _, .repeater _ _ kid | _, .loop _ _ kid | _, .gate _ _ _ _ kid =>
    congrArg (_ ++ ·) (handles_eq kid)
  | _, .ordered _ kids | _, .weighted _ _ kids => handles_eq_all kids
  | _, .parallel _ first second => by
    rw [Live.handles, handles_eq first, handles_eq second, Live.parts, List.flatMap_cons,
      List.flatMap_append]
    rfl
  | _, .condition _ _ => rfl
  | _, .action _ _ _ => (List.append_nil _).symm

theorem handles_eq_all : {trees : Forest H} → (lives : LiveForest H trees) →
    lives.handles = lives.parts.flatMap Part.holds
  | _, .nil => rfl
  | _, .cons head tail => by
    rw [LiveForest.handles, handles_eq head, handles_eq_all tail, LiveForest.parts,
      List.flatMap_append]

end

end Tasks

section Steps

variable {id : Nat} {ids : List Nat} {holds : Part H → Context H → Prop}
  {parts frame : List (Part H)} {cx cx' : Context H} {label : Label}

namespace Tracked

theorem below {part : Part H} (tracked : Tracked id holds (part :: parts) cx)
    (apart : part.tree.id ≠ id) : Tracked id holds parts cx := by
  unfold Tracked at tracked
  rwa [List.filter_cons_of_neg (by simpa using apart)] at tracked

theorem above {part : Part H} (tracked : Tracked id holds parts cx)
    (apart : part.tree.id ≠ id) : Tracked id holds (part :: parts) cx := by
  unfold Tracked
  rwa [List.filter_cons_of_neg (by simpa using apart)]

theorem swap {front back : List (Part H)}
    (tracked : Tracked id holds (front ++ (back ++ frame)) cx) :
    Tracked id holds (back ++ (front ++ frame)) cx := by
  obtain ⟨part, only, kept⟩ := tracked
  have moved := (List.perm_append_comm_assoc back front frame).filter (·.tree.id = id)
  rw [only] at moved
  exact ⟨part, List.perm_singleton.mp moved, kept⟩

variable (follows : Follows id ids holds) (tracked : Tracked id holds parts cx)

include follows tracked

theorem quiet (same : cx'.amid ids = cx.amid ids) (grows : cx.agenda.Grows cx'.agenda) :
    Tracked id holds parts cx' := by
  obtain ⟨part, only, kept⟩ := tracked
  exact ⟨part, only, follows.quiet kept same grows⟩

theorem record (event : Event) (apart : event.node ∉ ids) :
    Tracked id holds parts (cx.record event) := by
  refine tracked.quiet follows ?_ (.refl _)
  simp [Context.amid, Context.events_record, apart]

theorem announce (apart : label.id ∉ ids) (kind : NodeKind) (status : Status) :
    Tracked id holds parts (cx.announce label kind status) :=
  tracked.record follows _ apart

theorem announceAll (apart : label.id ∉ ids) (kind : NodeKind) (report : Report) :
    Tracked id holds parts (cx.announceAll label kind report) := by
  induction report generalizing cx with
  | nil => exact tracked
  | cons status report ih => exact ih (tracked.announce follows apart kind status)

theorem settle (apart : label.id ∉ ids) (kind : NodeKind) (status : Status) :
    Tracked id holds parts (cx.settle label kind status) := by
  unfold Context.settle
  split
  · exact tracked
  · exact tracked.announce follows apart kind .waiting

theorem poll (apart : label.id ∉ ids) (unit : H.Condition) :
    Tracked id holds parts (cx.poll label unit).cx := by
  have asked := tracked.record follows (.called label.id (.poll (cx.poll label unit).answer)) apart
  exact asked.quiet follows rfl (.refl _)

theorem cancel (task : Option Nat) : Tracked id holds parts (cx.cancel task) := by
  cases task with
  | none => exact tracked
  | some task => exact tracked.quiet follows rfl (.cancel _ task)

theorem everyTick (label : Label) : Tracked id holds parts (cx.everyTick label).2 :=
  tracked.quiet follows rfl (.everyTick _ label.id)

theorem after (label : Label) (delay : Nat) : Tracked id holds parts (cx.after label delay).2 :=
  tracked.quiet follows rfl (.after _ label.id delay)

theorem rearm (label : Label) (mode : PollMode) (period : Nat) (halts : Bool) :
    Tracked id holds parts (rearm label mode period halts cx).2 := by
  unfold ReactiveTree.rearm
  split
  · exact tracked
  · exact tracked.after follows label period

end Tracked

theorem own_tracked {after : Part H → Context H → Prop} {tree : Tree H} {live live' : Live H tree}
    (tracked : Tracked id holds (live.parts ++ frame) cx) (own : tree.id = id)
    (call : id ∉ tree.labels.tail.map Label.id → holds ⟨tree, live⟩ cx → after ⟨tree, live'⟩ cx') :
    Tracked id after (live'.parts ++ frame) cx' := by
  obtain ⟨part, only, kept⟩ := tracked
  -- the node stands in front of its parts, so it is the one that is tracked
  rw [parts_eq_cons, List.cons_append, List.filter_cons_of_pos (by simpa using own)] at only
  obtain ⟨rfl, rest⟩ := List.cons_eq_cons.mp only
  rw [List.filter_append, List.append_eq_nil_iff] at rest
  have below := filter_parts_eq_nil.mp rest.1
  rw [parts_tail_ids] at below
  refine ⟨⟨tree, live'⟩, ?_, call below kept⟩
  rw [parts_eq_cons, List.cons_append, List.filter_cons_of_pos (by simpa using own),
    List.filter_append, rest.2, filter_parts_eq_nil.mpr (by rwa [parts_tail_ids])]
  rfl

theorem own_activated (follows : Follows id ids holds) {tree : Tree H} {live : Live H tree}
    (tracked : Tracked id holds (live.parts ++ frame) cx) (own : tree.id = id) :
    Tracked id holds ((evaluate tree live cx).live.parts ++ frame) (evaluate tree live cx).cx :=
  own_tracked tracked own fun below kept => follows.activate own below kept

theorem own_halted (follows : Follows id ids holds) {tree : Tree H} {live : Live H tree}
    (tracked : Tracked id holds (live.parts ++ frame) cx) (own : tree.id = id) :
    Tracked id holds ((stop tree live cx).live.parts ++ frame) (stop tree live cx).cx :=
  own_tracked tracked own fun below kept => follows.halt own below kept

theorem leaf_tracked (follows : Follows id ids holds) {tree : Tree H} {live : Live H tree}
    (tracked : Tracked id holds (live.parts ++ frame) cx) (leaf : tree.labels = [tree.label])
    (other : tree.id ≠ id) (apart : tree.id ∉ ids) (summons : Summons) :
    Tracked id holds ((live.visit cx summons).live.parts ++ frame) (live.visit cx summons).cx := by
  have alone (live : Live H tree) : live.parts = [⟨tree, live⟩] := by
    have ends : live.parts.tail = [] := by
      rw [← List.map_eq_nil_iff, parts_tail_ids, leaf]
      rfl
    rw [parts_eq_cons, ends]
  rw [alone] at tracked ⊢
  have outside : ∀ id ∈ tree.labels.map Label.id, id ∉ ids := by
    rw [leaf]
    exact List.forall_mem_singleton.mpr apart
  exact ((tracked.below other).quiet follows (visit_amid live cx summons outside)
    (visit_grows live cx summons)).above other

section Rules

variable {σ : Type} (below : σ → List (Part H)) {activate : σ → Context H → Turn H σ}
  {halt : σ → Context H → Stopped H σ} (follows : Follows id ids holds)
  (activates : ∀ kid cx, Tracked id holds (below kid ++ frame) cx →
    Tracked id holds (below (activate kid cx).live ++ frame) (activate kid cx).cx)
  (halts : ∀ kid cx, Tracked id holds (below kid ++ frame) cx →
    Tracked id holds (below (halt kid cx).live ++ frame) (halt kid cx).cx)
  (apart : label.id ∉ ids)

include follows halts apart in
theorem react_tracked (order : Order) (report : Report) (later : σ) (cx : Context H)
    (tracked : Tracked id holds (below later ++ frame) cx) :
    Tracked id holds (below (order.react label halt report later cx).later ++ frame)
      (order.react label halt report later cx).cx := by
  induction report generalizing later cx with
  | nil => exact tracked
  | cons status report ih =>
    cases order with
    | selector =>
      cases status with
      | success => exact (halts _ _ tracked).announce follows apart .selector .success
      | running => exact ih _ _ ((halts _ _ tracked).announce follows apart .selector .running)
      | failure => exact tracked
      | _ => exact ih _ _ tracked
    | sequencer =>
      cases status with
      | success => exact tracked.announce follows apart .sequencer .running
      | running => exact ih _ _ (tracked.announce follows apart .sequencer .running)
      | failure => exact (halts _ _ tracked).announce follows apart .sequencer .failure
      | _ => exact ih _ _ tracked

include follows activates halts apart in
theorem accompany_tracked (report : Report) (background : σ) (cx : Context H)
    (tracked : Tracked id holds (below background ++ frame) cx) :
    Tracked id holds (below (accompany label activate halt report background cx).live ++ frame)
      (accompany label activate halt report background cx).cx := by
  induction report generalizing background cx with
  | nil => exact tracked
  | cons status report ih =>
    cases status with
    | success | failure =>
      exact ih _ _ ((halts _ _ tracked).announce follows apart .simpleParallel _)
    | running => exact ih _ _ ((activates _ _ tracked).announce follows apart .simpleParallel _)
    | _ => exact ih _ _ tracked

include follows activates in
theorem repeatChild_tracked (deferred : Option Nat) (kid : σ) (cx : Context H)
    (tracked : Tracked id holds (below kid ++ frame) cx) :
    Tracked id holds (below (repeatChild label activate deferred kid cx).kid ++ frame)
      (repeatChild label activate deferred kid cx).cx := by
  have active := activates kid cx tracked
  unfold repeatChild
  dsimp only
  split
  · exact active.everyTick follows label
  · exact active

include follows activates apart in
theorem cycleChild_tracked (period : Nat) (kid : σ) (cx : Context H)
    (tracked : Tracked id holds (below kid ++ frame) cx) :
    Tracked id holds (below (cycleChild label period activate kid cx).kid ++ frame)
      (cycleChild label period activate kid cx).cx :=
  (activates _ _ (tracked.announce follows apart .loop .running)).after follows label period

include follows activates halts apart in
theorem pollGate_tracked (mode : PollMode) (period : Nat) (status : Status) (unit : H.Condition)
    (last : Status) (kid : σ) (cx : Context H)
    (tracked : Tracked id holds (below kid ++ frame) cx) :
    let polled := pollGate label mode period activate halt status unit last kid cx
    Tracked id holds (below polled.kid ++ frame) polled.cx := by
  have asked := tracked.poll follows apart unit
  match answer : (cx.poll label unit).answer with
  | none =>
    rw [pollGate_faulted answer]
    exact (halts _ _ asked).announce follows apart .loopConditionNode .warning
  | some true =>
    by_cases succeeded : last = .success
    · rw [pollGate_content answer succeeded]
      exact asked.rearm follows label mode period false
    · rw [pollGate_opens answer succeeded]
      have active := activates _ _ (asked.announce follows apart .loopConditionNode .running)
      exact (active.announceAll follows apart .loopConditionNode _).rearm follows label mode
        period _
  | some false =>
    by_cases failed : last = .failure
    · rw [pollGate_closed answer failed]
      exact asked.rearm follows label mode period false
    · rw [pollGate_closes answer failed]
      exact (halts _ _ (asked.announce follows apart .loopConditionNode .failure)).rearm follows
        label mode period _

end Rules

theorem tracked_parallel {label : Label} {main background : Tree H} {status : Status}
    {first : Live H main} {second : Live H background} (own : label.id ≠ id) :
    Tracked id holds ((Live.parallel status first second :
        Live H (.parallel label main background)).parts ++ frame) cx ↔
      Tracked id holds (first.parts ++ (second.parts ++ frame)) cx := by
  rw [Live.parts, List.cons_append, List.append_assoc]
  exact ⟨fun tracked => tracked.below own, fun tracked => tracked.above own⟩

theorem tracked_forest_cons {tree : Tree H} {trees : Forest H} {head : Live H tree}
    {tail : LiveForest H trees} :
    Tracked id holds ((LiveForest.cons head tail).parts ++ frame) cx ↔
      Tracked id holds (head.parts ++ (tail.parts ++ frame)) cx := by
  rw [LiveForest.parts, List.append_assoc]

mutual

theorem stop_tracked (follows : Follows id ids holds) : (tree : Tree H) → tree.Clears id ids →
    (live : Live H tree) → (cx : Context H) → {frame : List (Part H)} →
    Tracked id holds (live.parts ++ frame) cx →
    Tracked id holds ((stop tree live cx).live.parts ++ frame) (stop tree live cx).cx
  -- a stop of the node itself is one of those that are followed, with all that it does below
  | .relay role label child, clear, .relay status kid, cx, frame, tracked => by
    by_cases own : label.id = id
    · exact own_halted follows tracked own
    obtain ⟨apart, below⟩ := clear.resolve_left own
    have halted := stop_tracked follows child below kid cx (tracked.below own)
    exact (halted.settle follows apart role.kind status).above own
  | .repeater label child, clear, .repeater status deferred kid, cx, frame, tracked => by
    by_cases own : label.id = id
    · exact own_halted follows tracked own
    obtain ⟨apart, below⟩ := clear.resolve_left own
    have given := (tracked.below own).cancel follows deferred
    have halted := stop_tracked follows child below kid _ given
    exact (halted.settle follows apart .repeater status).above own
  | .loop label _ child, clear, .loop status timer kid, cx, frame, tracked => by
    by_cases own : label.id = id
    · exact own_halted follows tracked own
    obtain ⟨apart, below⟩ := clear.resolve_left own
    have given := (tracked.below own).cancel follows timer
    have halted := stop_tracked follows child below kid _ given
    exact (halted.settle follows apart .loop status).above own
  | .gate label _ _ _ child, clear, .gate status unit timer last kid, cx, frame, tracked => by
    by_cases own : label.id = id
    · exact own_halted follows tracked own
    obtain ⟨apart, below⟩ := clear.resolve_left own
    have given := (tracked.below own).cancel follows timer
    have halted := stop_tracked follows child below kid _ given
    exact (halted.settle follows apart .loopConditionNode status).above own
  | .ordered order label children, clear, .ordered status kids, cx, frame, tracked => by
    by_cases own : label.id = id
    · exact own_halted follows tracked own
    obtain ⟨apart, below⟩ := clear.resolve_left own
    have halted := stopAll_tracked follows children below kids cx (tracked.below own)
    exact (halted.settle follows apart order.kind status).above own
  | .weighted label _ children, clear, .weighted status _ kids, cx, frame, tracked => by
    by_cases own : label.id = id
    · exact own_halted follows tracked own
    obtain ⟨apart, below⟩ := clear.resolve_left own
    have halted := stopAll_tracked follows children below kids cx (tracked.below own)
    exact (halted.settle follows apart .weightedRandomSelector status).above own
  | .parallel label main background, clear, .parallel status first second, cx, frame, tracked => by
    by_cases own : label.id = id
    · exact own_halted follows tracked own
    obtain ⟨apart, ahead, beside⟩ := clear.resolve_left own
    -- the parts of each child come to the front while the child is called
    have left := stop_tracked follows main ahead first cx ((tracked_parallel own).mp tracked)
    have right := stop_tracked follows background beside second _ left.swap
    exact (tracked_parallel own).mpr (right.settle follows apart .simpleParallel status).swap
  | .condition label unit, clear, live, cx, frame, tracked => by
    by_cases own : label.id = id
    · exact own_halted follows tracked own
    · exact leaf_tracked follows tracked rfl own (clear.resolve_left own) .stop
  | .action label unit, clear, live, cx, frame, tracked => by
    by_cases own : label.id = id
    · exact own_halted follows tracked own
    · exact leaf_tracked follows tracked rfl own (clear.resolve_left own) .stop

theorem stopAll_tracked (follows : Follows id ids holds) : (trees : Forest H) →
    trees.Clears id ids → (lives : LiveForest H trees) → (cx : Context H) →
    {frame : List (Part H)} → Tracked id holds (lives.parts ++ frame) cx →
    Tracked id holds ((stopAll trees lives cx).live.parts ++ frame) (stopAll trees lives cx).cx
  | .nil, _, .nil, cx, frame, tracked => tracked
  | .cons tree trees, clear, .cons head tail, cx, frame, tracked => by
    have first := stop_tracked follows tree clear.1 head cx (tracked_forest_cons.mp tracked)
    have rest := stopAll_tracked follows trees clear.2 tail _ first.swap
    exact tracked_forest_cons.mpr rest.swap

end

mutual

theorem evaluate_tracked (follows : Follows id ids holds) : (tree : Tree H) →
    tree.Clears id ids → (live : Live H tree) → (cx : Context H) → {frame : List (Part H)} →
    Tracked id holds (live.parts ++ frame) cx →
    Tracked id holds ((evaluate tree live cx).live.parts ++ frame) (evaluate tree live cx).cx
  | .relay role label child, clear, .relay status kid, cx, frame, tracked => by
    -- the node itself answers for its own calls, and a node above it has none of the ids
    by_cases own : label.id = id
    · exact own_activated follows tracked own
    obtain ⟨apart, below⟩ := clear.resolve_left own
    rw [evaluate]
    split
    · exact tracked
    · have told := (tracked.below own).announce follows apart role.kind .running
      have active := evaluate_tracked follows child below kid _ told
      exact (active.announceAll follows apart role.kind _).above own
  | .repeater label child, clear, .repeater status deferred kid, cx, frame, tracked => by
    by_cases own : label.id = id
    · exact own_activated follows tracked own
    obtain ⟨apart, below⟩ := clear.resolve_left own
    rw [evaluate]
    split
    · exact tracked
    · have given := (tracked.below own).cancel follows deferred
      exact (repeatChild_tracked Live.parts follows
        (fun kid cx => evaluate_tracked follows child below kid cx) none kid _
        (given.announce follows apart .repeater .running)).above own
  | .loop label period child, clear, .loop status timer kid, cx, frame, tracked => by
    by_cases own : label.id = id
    · exact own_activated follows tracked own
    obtain ⟨apart, below⟩ := clear.resolve_left own
    rw [evaluate]
    split
    · exact tracked
    · have given := (tracked.below own).cancel follows timer
      exact (cycleChild_tracked Live.parts follows
        (fun kid cx => evaluate_tracked follows child below kid cx) apart period kid _ given).above
        own
  | .gate label _ mode period child, clear, .gate status unit timer last kid, cx, frame,
      tracked => by
    by_cases own : label.id = id
    · exact own_activated follows tracked own
    obtain ⟨apart, below⟩ := clear.resolve_left own
    rw [evaluate]
    split
    · exact tracked
    · have given := (tracked.below own).cancel follows timer
      exact (pollGate_tracked Live.parts follows
        (fun kid cx => evaluate_tracked follows child below kid cx)
        (fun kid cx => stop_tracked follows child below kid cx) apart mode period .running unit
        .running kid _ (given.announce follows apart .loopConditionNode .running)).above own
  | .ordered order label children, clear, .ordered status kids, cx, frame, tracked => by
    by_cases own : label.id = id
    · exact own_activated follows tracked own
    obtain ⟨apart, below⟩ := clear.resolve_left own
    rw [evaluate]
    split
    · exact tracked
    · have told := (tracked.below own).announce follows apart order.kind .running
      exact (runFrom_tracked follows apart order children below kids _ told).above own
  | .weighted label bounds children, clear, .weighted status selected kids, cx, frame, tracked => by
    by_cases own : label.id = id
    · exact own_activated follows tracked own
    obtain ⟨apart, below⟩ := clear.resolve_left own
    rw [evaluate]
    split
    · exact tracked
    · have told := (tracked.below own).announce follows apart .weightedRandomSelector .running
      have drawn : Tracked id holds (kids.parts ++ frame)
          (cx.announce label .weightedRandomSelector .running).draw.2 :=
        told.quiet follows rfl (.refl _)
      exact ((evaluateAt_tracked follows children below _ kids _ drawn).announceAll follows apart
          .weightedRandomSelector _).above own
  | .parallel label main background, clear, .parallel status first second, cx, frame, tracked => by
    by_cases own : label.id = id
    · exact own_activated follows tracked own
    obtain ⟨apart, ahead, beside⟩ := clear.resolve_left own
    rw [evaluate]
    split
    · exact tracked
    · have told := ((tracked_parallel own).mp tracked).announce follows apart .simpleParallel .running
      have active := evaluate_tracked follows main ahead first _ told
      have heard := accompany_tracked Live.parts follows
        (fun kid cx => evaluate_tracked follows background beside kid cx)
        (fun kid cx => stop_tracked follows background beside kid cx) apart
        (evaluate main first (cx.announce label .simpleParallel .running)).report second _
        active.swap
      dsimp only
      split
      · exact (tracked_parallel own).mpr (evaluate_tracked follows background beside _ _ heard).swap
      · exact (tracked_parallel own).mpr heard.swap
  | .condition label unit, clear, live, cx, frame, tracked => by
    by_cases own : label.id = id
    · exact own_activated follows tracked own
    · exact leaf_tracked follows tracked rfl own (clear.resolve_left own) .evaluate
  | .action label unit, clear, live, cx, frame, tracked => by
    by_cases own : label.id = id
    · exact own_activated follows tracked own
    · exact leaf_tracked follows tracked rfl own (clear.resolve_left own) .evaluate

theorem runFrom_tracked (follows : Follows id ids holds) {label : Label} (apart : label.id ∉ ids)
    (order : Order) : (trees : Forest H) → trees.Clears id ids → (lives : LiveForest H trees) →
    (cx : Context H) → {frame : List (Part H)} → Tracked id holds (lives.parts ++ frame) cx →
    Tracked id holds ((runFrom order label trees lives cx).live.parts ++ frame)
      (runFrom order label trees lives cx).cx
  | .nil, _, .nil, cx, frame, tracked => tracked.announce follows apart order.kind order.exhausted
  | .cons tree trees, clear, .cons head tail, cx, frame, tracked => by
    have active := evaluate_tracked follows tree clear.1 head cx (tracked_forest_cons.mp tracked)
    have heard := react_tracked LiveForest.parts follows
      (fun later cx => stopAll_tracked follows trees clear.2 later cx) apart order
      (evaluate tree head cx).report tail _ active.swap
    rw [runFrom]
    dsimp only
    split
    · exact tracked_forest_cons.mpr
        (runFrom_tracked follows apart order trees clear.2 _ _ heard).swap
    · exact tracked_forest_cons.mpr heard.swap

theorem evaluateAt_tracked (follows : Follows id ids holds) : (trees : Forest H) →
    trees.Clears id ids → (index : Nat) → (lives : LiveForest H trees) → (cx : Context H) →
    {frame : List (Part H)} → Tracked id holds (lives.parts ++ frame) cx →
    Tracked id holds ((evaluateAt trees index lives cx).live.parts ++ frame)
      (evaluateAt trees index lives cx).cx
  | .nil, _, _, .nil, _, _, tracked => tracked
  | .cons tree _, clear, 0, .cons head _, cx, _, tracked =>
    tracked_forest_cons.mpr
      (evaluate_tracked follows tree clear.1 head cx (tracked_forest_cons.mp tracked))
  | .cons _ trees, clear, index + 1, .cons _ tail, cx, _, tracked =>
    tracked_forest_cons.mpr (evaluateAt_tracked follows trees clear.2 index tail cx
      (tracked_forest_cons.mp tracked).swap).swap

end

section Delivery

variable {wake : Wake} {before : Part H → Context H → Prop}

def Missed (wake : Wake) (parts : List (Part H)) : Prop :=
  ∀ part ∈ parts, wake.node ∉ part.tree.labels.map Label.id

theorem missed_append {front back : List (Part H)} (left : Missed wake front)
    (right : Missed wake back) : Missed wake (front ++ back) :=
  List.forall_mem_append.mpr ⟨left, right⟩

theorem missed_children {part : Part H} (outside : wake.node ∉ part.tree.labels.map Label.id) :
    ∀ kid ∈ part.live.children, wake.node ∉ kid.tree.labels.map Label.id := by
  intro kid below member
  have child : kid.tree ∈ part.tree.children := by
    rw [← children_trees part.live]
    exact List.mem_map_of_mem below
  obtain ⟨label, there, same⟩ := List.mem_map.mp member
  rw [labels_children] at outside
  exact outside (List.mem_map.mpr
    ⟨label, List.mem_cons_of_mem _ (List.mem_flatMap.mpr ⟨kid.tree, child, there⟩), same⟩)

theorem missed_parts {tree : Tree H} (live : Live H tree)
    (outside : wake.node ∉ tree.labels.map Label.id) : Missed wake live.parts :=
  forall_parts (fun part => wake.node ∉ part.tree.labels.map Label.id) (fun _ => missed_children)
    live outside

theorem missed_uncovered {tree : Tree H} (live : Live H tree) (numbered : tree.Numbered)
    (uncovered : ¬ tree.covers wake.node) : Missed wake live.parts :=
  missed_parts live (mt numbered.covers uncovered)

theorem missed_below {child : Tree H} (kid : Live H child) {id : Nat}
    (above : ∀ below ∈ child.labels.map Label.id, id < below) (own : wake.node = id) :
    Missed wake kid.parts :=
  missed_parts kid fun member => Nat.lt_irrefl _ (above _ (own ▸ member))

theorem missed_all {trees : Forest H} (lives : LiveForest H trees)
    (outside : wake.node ∉ trees.labels.map Label.id) : Missed wake lives.parts := by
  apply forall_parts_all (fun part => wake.node ∉ part.tree.labels.map Label.id)
    (fun _ => missed_children)
  intro kid member inside
  obtain ⟨label, there, same⟩ := List.mem_map.mp inside
  rw [labels_toList] at outside
  exact outside (List.mem_map.mpr
    ⟨label, List.mem_flatMap.mpr ⟨kid.tree, member_tree member, there⟩, same⟩)

theorem Tracked.miss (delivers : Delivers id wake before holds)
    (tracked : Tracked id before parts cx) (missed : Missed wake parts) :
    Tracked id holds parts cx := by
  obtain ⟨part, only, kept⟩ := tracked
  have found : part ∈ parts.filter (·.tree.id = id) := by
    rw [only]
    exact List.mem_singleton_self part
  obtain ⟨member, own⟩ := List.mem_filter.mp found
  exact ⟨part, only, delivers.unheard kept (of_decide_eq_true own) (missed part member)⟩

theorem own_resumed (delivers : Delivers id wake before holds) {tree : Tree H}
    {live : Live H tree} (tracked : Tracked id before (live.parts ++ frame) cx)
    (own : tree.id = id) :
    Tracked id holds ((resume wake tree live cx).live.parts ++ frame) (resume wake tree live cx).cx :=
  own_tracked tracked own fun below kept => delivers.heard own below kept

theorem leaf_resumed (follows : Follows id ids holds) (delivers : Delivers id wake before holds)
    {tree : Tree H} {live : Live H tree} (tracked : Tracked id before (live.parts ++ frame) cx)
    (leaf : tree.labels = [tree.label]) (other : tree.id ≠ id) (apart : tree.id ∉ ids)
    (missed : Missed wake frame) :
    Tracked id holds ((resume wake tree live cx).live.parts ++ frame)
      (resume wake tree live cx).cx := by
  have ends : live.parts.tail = [] := by
    rw [← List.map_eq_nil_iff, parts_tail_ids, leaf]
    rfl
  rw [parts_eq_cons, ends] at tracked
  have spared : Tracked id holds (live.parts ++ frame) cx := by
    rw [parts_eq_cons, ends]
    exact ((tracked.below other).miss delivers missed).above other
  exact leaf_tracked follows spared leaf other apart (.resume wake)

/-- What held of the node with the id before the wake resumes the tree holds of it as it should
afterwards, wherever it stands. -/
def WakeTracked (id : Nat) (before holds : Part H → Context H → Prop) (wake : Wake) (tree : Tree H)
    (live : Live H tree) (cx : Context H) : Prop :=
  ∀ ⦃frame : List (Part H)⦄, Missed wake frame → Tracked id before (live.parts ++ frame) cx →
    Tracked id holds ((resume wake tree live cx).live.parts ++ frame) (resume wake tree live cx).cx

theorem wakeTracked_of_other (delivers : Delivers id wake before holds) {tree : Tree H}
    {live : Live H tree} (others : tree.id ≠ id → WakeTracked id before holds wake tree live cx) :
    WakeTracked id before holds wake tree live cx := by
  intro frame missed tracked
  by_cases own : tree.id = id
  · exact own_resumed delivers tracked own
  · exact others own missed tracked

section Nodes

variable (follows : Follows id ids holds) (delivers : Delivers id wake before holds)
  (other : label.id ≠ id) (apart : label.id ∉ ids)
  {child : Tree H} {kid : Live H child} {status : Status} {timer : Option Nat}

include follows delivers other

include apart in
theorem relay_tracked {role : Relay} (numbered : child.Numbered)
    (resumed : WakeTracked id before holds wake child kid cx) :
    WakeTracked id before holds wake (.relay role label child) (.relay status kid) cx := by
  intro frame missed tracked
  have inside := tracked.below other
  rw [resume]
  split
  · have turned := resumed missed inside
    exact (turned.announceAll follows apart role.kind _).above other
  · rename_i uncovered
    have away := missed_append (missed_uncovered kid numbered uncovered) missed
    exact (inside.miss delivers away).above other

theorem repeater_tracked {deferred : Option Nat}
    (numbered : (Tree.repeater label child).Numbered) (clear : child.Clears id ids)
    (resumed : WakeTracked id before holds wake child kid cx) :
    WakeTracked id before holds wake (.repeater label child) (.repeater status deferred kid)
      cx := by
  intro frame missed tracked
  have activates (kid : Live H child) (cx : Context H)
      (there : Tracked id holds (kid.parts ++ frame) cx) :=
    evaluate_tracked follows child clear kid cx there
  have inside := tracked.below other
  rw [resume]
  split
  · rename_i addressed
    have spared := inside.miss delivers
      (missed_append (missed_below kid numbered.1 addressed) missed)
    split
    · exact (repeatChild_tracked Live.parts follows activates none kid _
        (spared.cancel follows deferred)).above other
    · exact spared.above other
  · split
    · have turned := resumed missed inside
      dsimp only
      split
      · exact (repeatChild_tracked Live.parts follows activates deferred _ _ turned).above other
      · exact turned.above other
    · rename_i uncovered
      have away := missed_append (missed_uncovered kid numbered.2 uncovered) missed
      exact (inside.miss delivers away).above other

include apart in
theorem loop_tracked {period : Nat} (numbered : (Tree.loop label period child).Numbered)
    (clear : child.Clears id ids) (resumed : WakeTracked id before holds wake child kid cx) :
    WakeTracked id before holds wake (.loop label period child) (.loop status timer kid) cx := by
  intro frame missed tracked
  have inside := tracked.below other
  rw [resume]
  split
  · rename_i addressed
    have spared := inside.miss delivers
      (missed_append (missed_below kid numbered.1 addressed) missed)
    split
    · exact (cycleChild_tracked Live.parts follows
        (fun kid cx => evaluate_tracked follows child clear kid cx) apart period kid cx
        spared).above other
    · exact spared.above other
  · split
    · exact (resumed missed inside).above other
    · rename_i uncovered
      have away := missed_append (missed_uncovered kid numbered.2 uncovered) missed
      exact (inside.miss delivers away).above other

include apart in
theorem gate_tracked {bound unit : H.Condition} {mode : PollMode} {period : Nat} {last : Status}
    (numbered : (Tree.gate label bound mode period child).Numbered) (clear : child.Clears id ids)
    (resumed : WakeTracked id before holds wake child kid cx) :
    WakeTracked id before holds wake (.gate label bound mode period child)
      (.gate status unit timer last kid) cx := by
  intro frame missed tracked
  have inside := tracked.below other
  rw [resume]
  split
  · rename_i addressed
    have spared := inside.miss delivers
      (missed_append (missed_below kid numbered.1 addressed) missed)
    split
    · exact (pollGate_tracked Live.parts follows
        (fun kid cx => evaluate_tracked follows child clear kid cx)
        (fun kid cx => stop_tracked follows child clear kid cx) apart mode period status unit last
        kid cx spared).above other
    · exact spared.above other
  · split
    · have turned := (resumed missed inside).announceAll follows apart .loopConditionNode
        ((resume wake child kid cx).report.filter Status.isReported)
      dsimp only
      split
      · exact (turned.cancel follows timer).above other
      · exact turned.above other
    · rename_i uncovered
      have away := missed_append (missed_uncovered kid numbered.2 uncovered) missed
      exact (inside.miss delivers away).above other

include apart in
theorem parallel_tracked {main background : Tree H} {first : Live H main}
    {second : Live H background} (numbered : (Tree.parallel label main background).Numbered)
    (clear : background.Clears id ids) (led : WakeTracked id before holds wake main first cx)
    (attended : WakeTracked id before holds wake background second cx) :
    WakeTracked id before holds wake (.parallel label main background)
      (.parallel status first second) cx := by
  intro frame missed tracked
  obtain ⟨_, left, right, outside⟩ := numbered
  have inside := (tracked_parallel other).mp tracked
  rw [resume]
  split
  · rename_i covered
    have away := missed_append (missed_parts second fun member => outside _ member covered) missed
    have turned := led away inside
    exact (tracked_parallel other).mpr (accompany_tracked Live.parts follows
      (fun kid cx => evaluate_tracked follows background clear kid cx)
      (fun kid cx => stop_tracked follows background clear kid cx) apart
      (resume wake main first cx).report second _ turned.swap).swap
  · rename_i uncovered
    have away := missed_uncovered first left uncovered
    split
    · exact (tracked_parallel other).mpr
        (attended (missed_append away missed) inside.swap).swap
    · rename_i neither
      have gone := missed_append (missed_uncovered second right neither) missed
      exact (tracked_parallel other).mpr (inside.miss delivers (missed_append away gone))

end Nodes

mutual

/-- A wake comes to the node that it is on the way to before anything else is done. -/
theorem resume_tracked (follows : Follows id ids holds) (delivers : Delivers id wake before holds) :
    (tree : Tree H) → tree.Numbered → tree.Clears id ids → (live : Live H tree) →
    (cx : Context H) → WakeTracked id before holds wake tree live cx
  | .relay _ _ child, numbered, clear, .relay _ kid, cx =>
    wakeTracked_of_other delivers fun other => by
      obtain ⟨apart, below⟩ := clear.resolve_left other
      exact relay_tracked follows delivers other apart numbered.2
        (resume_tracked follows delivers child numbered.2 below kid cx)
  | .repeater _ child, numbered, clear, .repeater _ _ kid, cx =>
    wakeTracked_of_other delivers fun other => by
      obtain ⟨_, below⟩ := clear.resolve_left other
      exact repeater_tracked follows delivers other numbered below
        (resume_tracked follows delivers child numbered.2 below kid cx)
  | .loop _ _ child, numbered, clear, .loop _ _ kid, cx =>
    wakeTracked_of_other delivers fun other => by
      obtain ⟨apart, below⟩ := clear.resolve_left other
      exact loop_tracked follows delivers other apart numbered below
        (resume_tracked follows delivers child numbered.2 below kid cx)
  | .gate _ _ _ _ child, numbered, clear, .gate _ _ _ _ kid, cx =>
    wakeTracked_of_other delivers fun other => by
      obtain ⟨apart, below⟩ := clear.resolve_left other
      exact gate_tracked follows delivers other apart numbered below
        (resume_tracked follows delivers child numbered.2 below kid cx)
  | .ordered order _ children, numbered, clear, .ordered _ kids, cx =>
    wakeTracked_of_other delivers fun other frame missed tracked => by
      obtain ⟨apart, below⟩ := clear.resolve_left other
      rw [resume]
      exact (resumeFrom_tracked follows delivers apart order children numbered.2 below kids cx
        missed (tracked.below other)).above other
  | .weighted _ _ children, numbered, clear, .weighted _ _ kids, cx =>
    wakeTracked_of_other delivers fun other frame missed tracked => by
      obtain ⟨apart, below⟩ := clear.resolve_left other
      have turned := resumeRouted_tracked follows delivers children numbered.2 below kids cx missed
        (tracked.below other)
      rw [resume]
      dsimp only
      split
      · exact (turned.announceAll follows apart .weightedRandomSelector _).above other
      · exact turned.above other
  | .parallel _ main background, numbered, clear, .parallel _ first second, cx =>
    wakeTracked_of_other delivers fun other => by
      obtain ⟨apart, ahead, beside⟩ := clear.resolve_left other
      exact parallel_tracked follows delivers other apart numbered beside
        (resume_tracked follows delivers main numbered.2.1 ahead first cx)
        (resume_tracked follows delivers background numbered.2.2.1 beside second cx)
  | .condition _ _, _, clear, _, _ =>
    wakeTracked_of_other delivers fun other _ missed tracked =>
      leaf_resumed follows delivers tracked rfl other (clear.resolve_left other) missed
  | .action _ _, _, clear, _, _ =>
    wakeTracked_of_other delivers fun other _ missed tracked =>
      leaf_resumed follows delivers tracked rfl other (clear.resolve_left other) missed

theorem resumeFrom_tracked (follows : Follows id ids holds)
    (delivers : Delivers id wake before holds) {label : Label} (apart : label.id ∉ ids)
    (order : Order) : (trees : Forest H) → trees.Numbered → trees.Clears id ids →
    (lives : LiveForest H trees) → (cx : Context H) → {frame : List (Part H)} →
    Missed wake frame → Tracked id before (lives.parts ++ frame) cx →
    Tracked id holds ((resumeFrom wake order label trees lives cx).live.parts ++ frame)
      (resumeFrom wake order label trees lives cx).cx
  | .nil, _, _, .nil, _, _, missed, tracked => tracked.miss delivers missed
  | .cons tree trees, numbered, clear, .cons head tail, cx, frame, missed, tracked => by
    obtain ⟨here, later, outside⟩ := numbered
    have inside := tracked_forest_cons.mp tracked
    rw [resumeFrom]
    split
    · rename_i covered
      have away := missed_append (missed_all tail fun member => outside _ member covered) missed
      have turned := resume_tracked follows delivers tree here clear.1 head cx away inside
      have heard := react_tracked LiveForest.parts follows
        (fun later cx => stopAll_tracked follows trees clear.2 later cx) apart order
        (resume wake tree head cx).report tail _ turned.swap
      dsimp only
      split
      · exact tracked_forest_cons.mpr
          (runFrom_tracked follows apart order trees clear.2 _ _ heard).swap
      · exact tracked_forest_cons.mpr heard.swap
    · rename_i uncovered
      have away := missed_append (missed_uncovered head here uncovered) missed
      exact tracked_forest_cons.mpr (resumeFrom_tracked follows delivers apart order trees later
        clear.2 tail cx away inside.swap).swap

theorem resumeRouted_tracked (follows : Follows id ids holds)
    (delivers : Delivers id wake before holds) : (trees : Forest H) → trees.Numbered →
    trees.Clears id ids → (lives : LiveForest H trees) → (cx : Context H) →
    {frame : List (Part H)} → Missed wake frame → Tracked id before (lives.parts ++ frame) cx →
    Tracked id holds ((resumeRouted wake trees lives cx).live.parts ++ frame)
      (resumeRouted wake trees lives cx).cx
  | .nil, _, _, .nil, _, _, missed, tracked => tracked.miss delivers missed
  | .cons tree trees, numbered, clear, .cons head tail, cx, frame, missed, tracked => by
    obtain ⟨here, later, outside⟩ := numbered
    have inside := tracked_forest_cons.mp tracked
    rw [resumeRouted]
    split
    · rename_i covered
      have away := missed_append (missed_all tail fun member => outside _ member covered) missed
      exact tracked_forest_cons.mpr
        (resume_tracked follows delivers tree here clear.1 head cx away inside)
    · rename_i uncovered
      have away := missed_append (missed_uncovered head here uncovered) missed
      exact tracked_forest_cons.mpr
        (resumeRouted_tracked follows delivers trees later clear.2 tail cx away inside.swap).swap

end

end Delivery

end Steps

structure Visit (H : Host) (tree : Tree H) where
  summons : Summons
  live : Live H tree
  cx : Context H

namespace Visit

variable {tree : Tree H}

def turn (visit : Visit H tree) : Turn H (Live H tree) :=
  visit.live.visit visit.cx visit.summons

/-- The call starts the node anew. -/
def Activates (visit : Visit H tree) : Prop :=
  visit.summons = .evaluate ∧ ¬ visit.live.isRunning

end Visit

/-- The calls of a node since its tree never ran, the oldest first, with what became of the node. In
between anything may happen that is not of the node's doing. -/
inductive Life {tree : Tree H} : List (Visit H tree) → Live H tree → Context H → Prop
  | born {cx : Context H} (unknown : cx.about tree.id = []) : Life [] (Live.initial tree) cx
  | aside {visits : List (Visit H tree)} {live : Live H tree} {cx cx' : Context H}
      (life : Life visits live cx) (same : cx'.about tree.id = cx.about tree.id)
      (grows : cx.agenda.nextId ≤ cx'.agenda.nextId) : Life visits live cx'
  | visit {visits : List (Visit H tree)} {live : Live H tree} {cx : Context H}
      (life : Life visits live cx) (summons : Summons) :
      Life (visits ++ [⟨summons, live, cx⟩]) (live.visit cx summons).live (live.visit cx summons).cx

theorem Life.heard {α : Type} (tells : Event → Option α) {tree : Tree H}
    {visits : List (Visit H tree)} {live : Live H tree} {cx : Context H}
    (life : Life visits live cx) : (cx.about tree.id).filterMap tells =
      visits.flatMap fun visit => ((visit.turn.cx.about tree.id).filterMap tells).drop
        ((visit.cx.about tree.id).filterMap tells).length := by
  induction life with
  | born unknown => rw [unknown]; rfl
  | aside _ same _ ih => rwa [same]
  | @visit visits live cx life summons ih =>
    obtain ⟨more, told, _⟩ := visit_told live cx summons tree.id
    rw [List.flatMap_append, List.flatMap_singleton, ← ih, Visit.turn, told, List.filterMap_append,
      List.drop_left]

theorem life_persists (id : Nat) : @Persists H id [id] fun part cx =>
    part.tree.id = id ∧ ∃ visits : List (Visit H part.tree), Life visits part.live cx where
  quiet := by
    rintro part cx cx' ⟨rfl, visits, life⟩ same grows
    exact ⟨rfl, visits, .aside life (Context.about_of_amid (List.mem_singleton_self _) same)
      grows.nextId⟩
  activate := by
    rintro tree live cx own _ ⟨_, visits, life⟩
    exact ⟨own, _, .visit life .evaluate⟩
  halt := by
    rintro tree live cx own _ ⟨_, visits, life⟩
    exact ⟨own, _, .visit life .stop⟩
  deliver wake := {
    heard := by
      rintro tree live cx own _ ⟨_, visits, life⟩
      exact ⟨own, _, .visit life (.resume wake)⟩
    unheard := fun kept _ _ => kept }
  advance := by
    rintro part cx delta ⟨rfl, visits, life⟩
    exact ⟨rfl, visits, .aside life rfl (Nat.le_refl _)⟩

section Birth

theorem initial_members (trees : Forest H) : ∀ kid ∈ (LiveForest.initial trees).members,
    kid.live = Live.initial kid.tree := by
  induction trees with
  | nil => exact List.forall_mem_nil _
  | cons tree trees ih => exact List.forall_mem_cons.mpr ⟨rfl, ih⟩

theorem initial_parts (tree : Tree H) : ∀ part ∈ (Live.initial tree).parts,
    part.live = Live.initial part.tree := by
  refine forall_parts (fun part => part.live = Live.initial part.tree) ?_ _ rfl
  rintro ⟨tree, live⟩ never
  obtain rfl : live = Live.initial tree := never
  cases tree with
  | relay | repeater | loop | gate => exact List.forall_mem_singleton.mpr rfl
  | ordered _ _ children | weighted _ _ children => exact initial_members children
  | parallel => exact List.forall_mem_cons.mpr ⟨rfl, List.forall_mem_singleton.mpr rfl⟩
  | condition | action => nofun

end Birth

namespace Session

variable {tree : Tree H} {session : Session H tree} {id : Nat} {ids : List Nat}
  {holds : Part H → Context H → Prop}

def Tracks (id : Nat) (holds : Part H → Context H → Prop) (session : Session H tree) : Prop :=
  Tracked id holds session.live.parts session.cx

theorem tracks_of_forall (distinct : (tree.labels.map Label.id).Nodup)
    (member : id ∈ tree.labels.map Label.id)
    (kept : ∀ part ∈ session.live.parts, part.tree.id = id → holds part session.cx) :
    session.Tracks id holds := by
  rw [← parts_ids session.live] at member
  obtain ⟨part, there, rfl⟩ := List.mem_map.mp member
  exact ⟨part, filter_parts_eq_singleton distinct there, kept part there rfl⟩

theorem Tracks.of_mem (tracks : session.Tracks id holds) {part : Part H}
    (member : part ∈ session.live.parts) (own : part.tree.id = id) : holds part session.cx := by
  obtain ⟨only, alone, kept⟩ := tracks
  have found : part ∈ session.live.parts.filter (·.tree.id = id) :=
    List.mem_filter.mpr ⟨member, decide_eq_true own⟩
  rw [alone] at found
  exact List.mem_singleton.mp found ▸ kept

section Calls

variable (numbered : tree.Numbered) (clear : tree.Clears id ids) (follows : Follows id ids holds)

include clear follows

theorem evaluate_tracks (tracks : session.Tracks id holds) :
    session.evaluate.1.Tracks id holds := by
  have tracked := evaluate_tracked follows tree clear session.live session.cx
    (by rwa [List.append_nil])
  rwa [List.append_nil] at tracked

theorem stop_tracks (tracks : session.Tracks id holds) : session.stop.Tracks id holds := by
  have tracked := stop_tracked follows tree clear session.live session.cx
    (by rwa [List.append_nil])
  rwa [List.append_nil] at tracked

include numbered

theorem wake_tracks {before : Part H → Context H → Prop} {due : Wake}
    (delivers : Delivers id due before holds) (tracks : session.Tracks id before) :
    (session.wake due).1.Tracks id holds := by
  unfold wake
  split
  · have tracked := resume_tracked follows delivers tree numbered clear session.live session.cx
      (List.forall_mem_nil _) (by rwa [List.append_nil])
    rwa [List.append_nil] at tracked
  · rename_i uncovered
    exact tracks.miss delivers (missed_uncovered session.live numbered uncovered)

theorem dispatch_tracks {due : List Wake} (delivers : ∀ wake ∈ due, Delivers id wake holds holds)
    (tracks : session.Tracks id holds) : (dispatch wake due session).1.Tracks id holds := by
  induction due generalizing session with
  | nil => exact tracks
  | cons first rest ih =>
    obtain ⟨delivers, later⟩ := List.forall_mem_cons.mp delivers
    exact ih later (wake_tracks numbered clear follows delivers tracks)

/-- A batch in which one wake is not like the others. -/
theorem dispatch_tracks_of_mem {before : Part H → Context H → Prop} {front back : List Wake}
    {own : Wake} (early : Follows id ids before)
    (misses : ∀ wake ∈ front, Delivers id wake before before)
    (heeds : Delivers id own before holds) (later : ∀ wake ∈ back, Delivers id wake holds holds)
    (tracks : session.Tracks id before) :
    (dispatch wake (front ++ own :: back) session).1.Tracks id holds := by
  have told := dispatch_tracks numbered clear early misses tracks
  have woken := wake_tracks numbered clear follows heeds told
  have rest := dispatch_tracks numbered clear follows later woken
  rw [dispatch_append]
  exact rest

end Calls

section Runs

variable (numbered : tree.Numbered) (clear : tree.Clears id ids) (persists : Persists id ids holds)
  (tracks : session.Tracks id holds)

include numbered clear persists tracks

theorem perform_tracks (command : Command H) : (session.perform command).Tracks id holds := by
  have follows := persists.toFollows
  cases command with
  | evaluate => exact evaluate_tracks clear follows tracks
  | tick delta =>
    obtain ⟨part, only, kept⟩ := tracks
    exact dispatch_tracks numbered clear follows (fun due _ => persists.deliver due)
      ⟨part, only, persists.advance delta kept⟩
  | stop => exact stop_tracks clear follows tracks
  | change edit => exact Tracked.quiet follows tracks rfl (.refl _)

/-- What every call of a node keeps, a run of its tree keeps. -/
theorem run_tracks (commands : List (Command H)) : (session.run commands).Tracks id holds := by
  induction commands generalizing session with
  | nil => exact tracks
  | cons command rest ih => exact ih (perform_tracks numbered clear persists tracks command)

end Runs

theorem run_lives (numbered : tree.Numbered) (scene : Scene H.Target)
    (sampler : H.Sampler) (commands : List (Command H)) :
    let session := (start tree scene sampler).run commands
    ∀ part ∈ session.live.parts, ∃ visits : List (Visit H part.tree),
      Life visits part.live session.cx := by
  intro session part member
  have named : part.tree.id ∈ tree.labels.map Label.id := by
    rw [← parts_ids session.live]
    exact List.mem_map_of_mem member
  have born : (start tree scene sampler).Tracks part.tree.id fun other cx =>
      other.tree.id = part.tree.id ∧
        ∃ visits : List (Visit H other.tree), Life visits other.live cx := by
    refine tracks_of_forall numbered.distinct named fun other there own => ⟨own, [], ?_⟩
    rw [initial_parts tree other there]
    exact .born rfl
  exact ((run_tracks numbered (clears_singleton _ tree) (life_persists _) born commands).of_mem member
    rfl).2

end Session

end ReactiveTree
