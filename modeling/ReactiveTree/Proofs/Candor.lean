import ReactiveTree.Proofs.ShortCircuit
import ReactiveTree.Proofs.States

/-!
What a node can know of a child by the reports it hears. A tree settles if it holds no task once it
stopped running; it speaks if it never starts to run without a report; and it is quiet if nothing
runs beneath it unless it runs itself. A function node hands on nothing but verdicts, an action
starts in silence, and a gate may poll on after it ended.

What a node then knows is kept in its state from call to call: a composed state is one in which no
child runs behind the back of its parent, so far as the child settles or speaks.
-/

namespace ReactiveTree

variable {H : Host}

/-- The tree holds no task unless it runs. -/
def Tree.Settles (tree : Tree H) : Prop :=
  ∀ live : Live H tree, live.Reachable → live.status ≠ .running → live.handles = []

/-- The tree reports something whenever it is activated. -/
def Tree.Speaks (tree : Tree H) : Prop :=
  ∀ (live : Live H tree) (cx : Context H), live.Reachable → live.status ≠ .running →
    (evaluate tree live cx).report ≠ []

/-- Nothing runs beneath the node unless the node runs. -/
def Tree.Quiet (tree : Tree H) : Prop :=
  ∀ live : Live H tree, live.Reachable → live.status ≠ .running → live.Idle

def Forest.Settles (trees : Forest H) : Prop := ∀ tree ∈ trees.toList, tree.Settles

def Forest.Speaks (trees : Forest H) : Prop := ∀ tree ∈ trees.toList, tree.Speaks

/-- A gate with its child. While it polls on after it failed, the child does not run, unless the
child may have been activated without a word. -/
structure PollMode.Composed (mode : PollMode) (speaks : Prop) (status last : Status)
    (timer : Option Nat) (kid : Status) : Prop where
  follows : kid = .running → status = .running
  once : mode = .once → timer = none
  ends : mode = .trueToFalse → timer ≠ none → last ≠ .failure
  closed : mode ≠ .both ∨ speaks → timer ≠ none → last = .failure → kid ≠ .running

/-- While a child runs the later ones hold nothing, if the node heard that the child runs or if no
child outlasts its verdict. -/
def Order.Yields (order : Order) (settled : Prop) (kids : List (Part H)) : Prop :=
  kids.Pairwise fun first later => settled ∨ order = .selector ∧ first.tree.Speaks →
    first.live.status = .running → later.live.handles = []

structure Order.Composed (order : Order) (children : Forest H) (status : Status)
    (kids : List (Part H)) : Prop where
  yields : order.Yields children.Settles kids
  ends : children.Settles ∨ order = .selector ∧ children.Speaks → status ≠ .running →
    ∀ kid ∈ kids, kid.live.status ≠ .running

/-- A child that runs is the chosen one, if it settles; and the node runs with the chosen one. -/
def Chosen (status : Status) (selected : Option Nat) (kids : List (Part H)) : Prop :=
  ∀ index kid, kids[index]? = some kid → kid.live.status = .running →
    (kid.tree.Settles → selected = some index) ∧ (selected = some index → status = .running)

def Live.Composed : {tree : Tree H} → Live H tree → Prop
  | .relay role _ child, .relay status kid =>
    role = .inverse ∨ child.Settles → kid.status = .running → status = .running
  | .repeater _ _, .repeater status task kid | .loop _ _ _, .loop status task kid =>
    status ≠ .running → task = none ∧ kid.handles = []
  | .gate _ _ mode _ child, .gate status _ timer last kid =>
    mode.Composed child.Speaks status last timer kid.status
  | .ordered order _ children, .ordered status kids =>
    order.Composed children status kids.members
  | .weighted _ _ _, .weighted status selected kids => Chosen status selected kids.members
  | .parallel _ _ _, .parallel status first second =>
    (first.status = .running → status = .running) ∧
      (first.status ≠ .running → second.handles = [])
  | .condition _ _, .condition _ _ => True
  | .action _ _, .action status _ task => status ≠ .running → task = none

section Members

variable {trees : Forest H} {lives : LiveForest H trees}

theorem unheld_iff_members :
    lives.handles = [] ↔ ∀ kid ∈ lives.members, kid.live.handles = [] := by
  induction lives with
  | nil => exact iff_of_true rfl (List.forall_mem_nil _)
  | cons _ _ ih =>
    rw [LiveForest.handles, LiveForest.members, List.forall_mem_cons, List.append_eq_nil_iff, ih]

theorem settled_unheld_all (settles : trees.Settles) (reached : lives.Reachable)
    (still : ∀ kid ∈ lives.members, kid.live.status ≠ .running) : lives.handles = [] :=
  unheld_iff_members.mpr fun kid member =>
    settles kid.tree (member_tree member) kid.live (reached kid member) (still kid member)

theorem Chosen.still {status : Status} {selected : Option Nat}
    (chosen : Chosen status selected lives.members) (settles : trees.Settles)
    (still : status ≠ .running) : ∀ kid ∈ lives.members, kid.live.status ≠ .running := by
  intro kid member runs
  obtain ⟨index, found⟩ := List.mem_iff_getElem?.mp member
  obtain ⟨picked, upheld⟩ := chosen index kid found runs
  exact still (upheld (picked (settles _ (member_tree member))))

theorem LiveForest.Idle.status_ne (idle : lives.Idle) :
    ∀ kid ∈ lives.members, kid.live.status ≠ .running :=
  fun kid member => (forest_idle_iff.mp idle kid member).status_ne

end Members

theorem yields_of_unheld {order : Order} {settled : Prop} {kids : List (Part H)}
    (unheld : ∀ kid ∈ kids, kid.live.handles = []) : order.Yields settled kids := by
  induction kids with
  | nil => exact List.Pairwise.nil
  | cons first rest ih =>
    obtain ⟨_, later⟩ := List.forall_mem_cons.mp unheld
    exact List.pairwise_cons.mpr ⟨fun kid member _ _ => later kid member, ih later⟩

theorem holds_eq_nil {label : Label} {once : Bool} {task : Option Nat} :
    label.holds once task = [] ↔ task = none := by
  cases task <;> simp [Label.holds]

theorem composed_of_unheld {tree : Tree H} (live : Live H tree) (idle : live.Idle)
    (unheld : live.handles = []) : live.Composed := by
  cases live with
  | relay _ kid =>
    have below : kid.Idle := ((idle_cons rfl).mp idle).2
    exact fun _ runs => absurd runs below.status_ne
  | repeater _ _ kid | loop _ _ kid =>
    obtain ⟨own, below⟩ := List.append_eq_nil_iff.mp unheld
    exact fun _ => ⟨holds_eq_nil.mp own, below⟩
  | gate _ _ _ _ kid =>
    have none_ := holds_eq_nil.mp (List.append_eq_nil_iff.mp unheld).1
    have below : kid.Idle := ((idle_cons rfl).mp idle).2
    exact {
      follows := fun runs => absurd runs below.status_ne
      once := fun _ => none_
      ends := fun _ polls => absurd none_ polls
      closed := fun _ polls => absurd none_ polls }
  | ordered _ kids =>
    have below : kids.Idle := ((idle_cons rfl).mp idle).2
    exact {
      yields := yields_of_unheld (unheld_iff_members.mp unheld)
      ends := fun _ _ => below.status_ne }
  | weighted _ _ kids =>
    have below : kids.Idle := ((idle_cons rfl).mp idle).2
    exact fun index kid found runs =>
      absurd runs (below.status_ne kid (List.mem_of_getElem? found))
  | parallel _ first second =>
    obtain ⟨main, beside⟩ := List.append_eq_nil_iff.mp unheld
    obtain ⟨left, _⟩ := List.forall_mem_append.mp ((idle_cons rfl).mp idle).2
    have left : first.Idle := left
    exact ⟨fun runs => absurd runs left.status_ne, fun _ => beside⟩
  | condition _ _ => trivial
  | action _ _ _ => exact fun _ => holds_eq_nil.mp unheld

section Hearing

open Report

variable {prior after : Status} {faulted : Prop} {report : Report}

theorem Report.Agrees.lasts (agrees : report.Agrees prior faulted after)
    (running : after = .running) : report.Lasts := by
  by_cases fault : faulted
  · rw [(agrees.warns fault).2] at running
    cases running
  · rw [agrees.follows fault] at running
    exact lasts_of_last running

theorem Report.Agrees.silent (agrees : report.Agrees prior faulted after) (quiet : report = []) :
    after = prior := by
  subst quiet
  exact agrees.follows fun fault => nomatch (agrees.warns fault).1

theorem hand_inverse_ne_nil (orderly : report.Orderly) (spoken : report ≠ []) :
    Relay.inverse.hand report ≠ [] := by
  rw [Relay.hand, show Relay.passes .inverse = Status.isReported from rfl, orderly.reported]
  exact mt List.map_eq_nil_iff.mp spoken

variable {σ : Type} {order : Order} {label : Label} {halt : σ → Context H → Stopped H σ}
  (halted : σ → Prop)

theorem lasts_cons : Lasts (.running :: report) ↔ report.Lasts := by
  rw [Lasts, Lasts, List.getLastD_cons]

theorem react_stays (orderly : report.Orderly) (lasts : report.Lasts) {later : σ} {cx : Context H} :
    ¬ (order.react label halt report later cx).advances := by
  induction orderly generalizing later cx with
  | silent => exact Bool.false_ne_true
  | verdict success => cases success <;> cases lasts
  | running _ ih => cases order <;> exact ih (lasts_cons.mp lasts)

/-- A selector that hears that a child runs has stopped the later ones. -/
theorem selector_halts (halts : ∀ later cx, halted (halt later cx).live) (orderly : report.Orderly)
    (lasts : report.Lasts) (spoken : report ≠ []) {later : σ} {cx : Context H} :
    halted (Order.selector.react label halt report later cx).later := by
  induction orderly generalizing later cx with
  | silent => exact absurd rfl spoken
  | verdict success => cases success <;> cases lasts
  | @running report _ ih =>
    by_cases more : report = []
    · subst more
      exact halts _ _
    · exact ih (lasts_cons.mp lasts) more

theorem react_ended (halts : ∀ later cx, halted (halt later cx).live) (orderly : report.Orderly)
    {later : σ} {cx : Context H} (stays : ¬ (order.react label halt report later cx).advances)
    (ended : ¬ Lasts (order.react label halt report later cx).report) :
    ¬ report.Lasts ∧ halted (order.react label halt report later cx).later := by
  induction orderly generalizing later cx with
  | silent => exact absurd rfl ended
  | verdict success =>
    cases order <;> cases success <;> first | exact absurd rfl stays | exact ⟨nofun, halts _ _⟩
  | running _ ih =>
    rw [lasts_cons]
    cases order <;> exact ih stays fun lasts => ended (lasts_cons.mpr lasts)

/-- A selector alone goes on to the next child without a word. -/
theorem react_speaks (orderly : report.Orderly) (spoken : report ≠ []) {later : σ}
    {cx : Context H} : (order.react label halt report later cx).report ≠ [] ∨
      order = .selector ∧ (order.react label halt report later cx).advances := by
  cases orderly with
  | silent => exact absurd rfl spoken
  | verdict success =>
    cases order <;> cases success <;>
      first | exact .inl (List.cons_ne_nil _ _) | exact .inr ⟨rfl, rfl⟩
  | running _ => cases order <;> exact .inl (List.cons_ne_nil _ _)

end Hearing

section Reacting

variable {trees : Forest H} {later : LiveForest H trees} (order : Order) (label : Label)
  (report : Report) (cx : Context H)

theorem react_still (still : ∀ kid ∈ later.members, kid.live.status ≠ .running) :
    ∀ kid ∈ (order.react label (stopAll trees) report later cx).later.members,
      kid.live.status ≠ .running :=
  react_keeps (fun later _ => ∀ kid ∈ later.members, kid.live.status ≠ .running)
    (fun later cx _ => (stopAll_idle trees later cx).status_ne) order label report later cx still

theorem react_unheld (unheld : later.handles = []) :
    (order.react label (stopAll trees) report later cx).later.handles = [] :=
  react_keeps (fun later _ => later.handles = []) (fun later cx _ => stopAll_handles trees later cx)
    order label report later cx unheld

end Reacting

section Speaking

theorem pollGate_speaks {σ : Type} {label : Label} {mode : PollMode} {period : Nat}
    {activate : σ → Context H → Turn H σ} {halt : σ → Context H → Stopped H σ} {status : Status}
    {unit : H.Condition} {last : Status} {kid : σ} {cx : Context H} (open_ : last = .running) :
    (pollGate label mode period activate halt status unit last kid cx).report ≠ [] := by
  match answer : (cx.poll label unit).answer with
  | none =>
    rw [pollGate_faulted answer]
    exact List.cons_ne_nil _ _
  | some true =>
    rw [pollGate_opens answer (by rw [open_]; nofun)]
    exact List.cons_ne_nil _ _
  | some false =>
    rw [pollGate_closes answer (by rw [open_]; nofun)]
    exact List.cons_ne_nil _ _

theorem runCondition_speaks (label : Label) (unit : H.Condition) (cx : Context H) :
    (runCondition label unit cx).answer.2 ≠ [] := by
  unfold runCondition
  dsimp only
  split <;> exact List.cons_ne_nil _ _

theorem runFrom_speaks (label : Label) (trees : Forest H) (speaks : trees.Speaks)
    (lives : LiveForest H trees) (cx : Context H) (reached : lives.Reachable)
    (still : ∀ kid ∈ lives.members, kid.live.status ≠ .running) :
    (runFrom .selector label trees lives cx).report ≠ [] := by
  induction trees generalizing cx with
  | nil =>
    cases lives
    exact List.cons_ne_nil _ _
  | cons tree trees ih =>
    cases lives with | cons head tail
    obtain ⟨here, beyond⟩ := List.forall_mem_cons.mp still
    obtain ⟨first, later⟩ := reachable_cons.mp reached
    obtain ⟨spoken, others⟩ := List.forall_mem_cons.mp speaks
    rw [runFrom]
    dsimp only
    split
    · exact List.append_ne_nil_of_right_ne_nil _ (ih others _ _
        (react_reachable later .selector label _ _) (react_still .selector label _ _ beyond))
    · rename_i stays
      exact (react_speaks (evaluate_agrees tree head cx).orderly
        (spoken head cx first here)).resolve_right fun goes => stays goes.2

end Speaking

end ReactiveTree
