import ReactiveTree.Proofs.Descent
import ReactiveTree.Proofs.Run

/-!
The states that a node can be in. Whatever a call does to a tree, it activates, resumes and stops
nodes, so a fact about all states that these lead to is one about every run.
-/

namespace ReactiveTree

variable {H : Host}

/-- The states of a node that calls lead to, whatever they are made in. -/
inductive Live.Reachable {tree : Tree H} : Live H tree → Prop
  | fresh : Live.Reachable (Live.initial tree)
  | activated {live : Live H tree} (cx : Context H) (reached : live.Reachable) :
    Live.Reachable (evaluate tree live cx).live
  | woken {live : Live H tree} (wake : Wake) (cx : Context H) (reached : live.Reachable) :
    Live.Reachable (resume wake tree live cx).live
  | stopped {live : Live H tree} (cx : Context H) (reached : live.Reachable) :
    Live.Reachable (stop tree live cx).live

theorem Live.Reachable.attended {tree : Tree H} {live : Live H tree} (reached : live.Reachable)
    (weighed : tree.Weighed) : live.Attended := by
  induction reached with
  | fresh => exact initial_attended tree
  | activated cx _ ih => exact evaluate_attended tree weighed _ cx ih
  | woken wake cx _ ih => exact resume_attended wake tree weighed _ cx ih
  | stopped cx _ _ => exact stop_attended tree _ cx

section Children

def LiveForest.Reachable {trees : Forest H} (lives : LiveForest H trees) : Prop :=
  ∀ kid ∈ lives.members, kid.live.Reachable

theorem reachable_cons {tree : Tree H} {trees : Forest H} {head : Live H tree}
    {tail : LiveForest H trees} :
    (LiveForest.cons head tail).Reachable ↔ head.Reachable ∧ tail.Reachable :=
  List.forall_mem_cons

theorem initial_reachable (trees : Forest H) : (LiveForest.initial trees).Reachable := by
  induction trees with
  | nil => exact List.forall_mem_nil _
  | cons _ _ ih => exact reachable_cons.mpr ⟨.fresh, ih⟩

theorem stopAll_reachable (trees : Forest H) (lives : LiveForest H trees) (cx : Context H)
    (reached : lives.Reachable) : (stopAll trees lives cx).live.Reachable := by
  induction lives generalizing cx with
  | nil => exact List.forall_mem_nil _
  | cons head tail ih =>
    obtain ⟨first, rest⟩ := reachable_cons.mp reached
    exact reachable_cons.mpr ⟨.stopped cx first, ih _ rest⟩

theorem react_reachable {trees : Forest H} {later : LiveForest H trees} (reached : later.Reachable)
    (order : Order) (label : Label) (report : Report) (cx : Context H) :
    (order.react label (stopAll trees) report later cx).later.Reachable :=
  react_keeps (fun later _ => later.Reachable) (fun later cx => stopAll_reachable trees later cx)
    order label report later cx reached

theorem runFrom_reachable (order : Order) (label : Label) (trees : Forest H)
    (lives : LiveForest H trees) (cx : Context H) (reached : lives.Reachable) :
    (runFrom order label trees lives cx).live.Reachable := by
  induction trees generalizing cx with
  | nil =>
    cases lives
    exact List.forall_mem_nil _
  | cons tree trees ih =>
    cases lives with | cons head tail
    obtain ⟨first, rest⟩ := reachable_cons.mp reached
    have heard := react_reachable rest order label
    rw [runFrom]
    dsimp only
    split
    · exact reachable_cons.mpr ⟨.activated cx first, ih _ _ (heard _ _)⟩
    · exact reachable_cons.mpr ⟨.activated cx first, heard _ _⟩

theorem evaluateAt_reachable (trees : Forest H) (index : Nat) (lives : LiveForest H trees)
    (cx : Context H) (reached : lives.Reachable) :
    (evaluateAt trees index lives cx).live.Reachable := by
  induction lives generalizing index with
  | nil => exact List.forall_mem_nil _
  | cons head tail ih =>
    obtain ⟨first, rest⟩ := reachable_cons.mp reached
    cases index with
    | zero => exact reachable_cons.mpr ⟨.activated cx first, rest⟩
    | succ index => exact reachable_cons.mpr ⟨first, ih index rest⟩

theorem resumeFrom_reachable (wake : Wake) (order : Order) (label : Label) (trees : Forest H)
    (lives : LiveForest H trees) (cx : Context H) (reached : lives.Reachable) :
    (resumeFrom wake order label trees lives cx).live.Reachable := by
  induction lives with
  | nil => exact List.forall_mem_nil _
  | @cons tree trees head tail ih =>
    obtain ⟨first, rest⟩ := reachable_cons.mp reached
    have heard := react_reachable rest order label
    rw [resumeFrom]
    split
    · dsimp only
      split
      · exact reachable_cons.mpr
          ⟨.woken wake cx first, runFrom_reachable order label trees _ _ (heard _ _)⟩
      · exact reachable_cons.mpr ⟨.woken wake cx first, heard _ _⟩
    · exact reachable_cons.mpr ⟨first, ih rest⟩

theorem resumeRouted_reachable (wake : Wake) (trees : Forest H) (lives : LiveForest H trees)
    (cx : Context H) (reached : lives.Reachable) :
    (resumeRouted wake trees lives cx).live.Reachable := by
  induction lives with
  | nil => exact List.forall_mem_nil _
  | cons head tail ih =>
    obtain ⟨first, rest⟩ := reachable_cons.mp reached
    rw [resumeRouted]
    split
    · exact reachable_cons.mpr ⟨.woken wake cx first, rest⟩
    · exact reachable_cons.mpr ⟨first, ih rest⟩

theorem repeatChild_reachable {child : Tree H} {kid : Live H child} (reached : kid.Reachable)
    (label : Label) (deferred : Option Nat) (cx : Context H) :
    (repeatChild label (evaluate child) deferred kid cx).kid.Reachable :=
  repeatChild_kid Live.Reachable (fun _ cx => .activated cx) label deferred kid cx reached

theorem pollGate_reachable {child : Tree H} {kid : Live H child} (reached : kid.Reachable)
    (label : Label) (mode : PollMode) (period : Nat) (status : Status) (unit : H.Condition)
    (last : Status) (cx : Context H) :
    (pollGate label mode period (evaluate child) (stop child) status unit last kid
      cx).kid.Reachable :=
  pollGate_kid Live.Reachable (fun _ cx => .activated cx) (fun _ cx => .stopped cx) label mode
    period status unit last kid cx reached

theorem accompany_reachable {background : Tree H} {kid : Live H background}
    (reached : kid.Reachable) (label : Label) (report : Report) (cx : Context H) :
    (accompany label (evaluate background) (stop background) report kid cx).live.Reachable :=
  accompany_keeps (fun kid _ => kid.Reachable) (fun _ cx => .activated cx)
    (fun _ cx => .stopped cx) label report kid cx reached

theorem evaluate_children {tree : Tree H} (live : Live H tree) (cx : Context H)
    (kids : ∀ kid ∈ live.children, kid.live.Reachable) :
    ∀ kid ∈ (evaluate tree live cx).live.children, kid.live.Reachable := by
  cases live with
  | relay status kid =>
    rw [evaluate]
    split
    · exact kids
    · exact List.forall_mem_singleton.mpr (.activated _ (kids _ List.mem_cons_self))
  | repeater status deferred kid =>
    rw [evaluate]
    split
    · exact kids
    · exact List.forall_mem_singleton.mpr
        (repeatChild_reachable (kids _ List.mem_cons_self) _ none _)
  | loop status timer kid =>
    rw [evaluate]
    split
    · exact kids
    · exact List.forall_mem_singleton.mpr (.activated _ (kids _ List.mem_cons_self))
  | gate status unit timer last kid =>
    rw [evaluate]
    split
    · exact kids
    · exact List.forall_mem_singleton.mpr
        (pollGate_reachable (kids _ List.mem_cons_self) _ _ _ .running unit .running _)
  | ordered status lives =>
    rw [evaluate]
    split
    · exact kids
    · exact runFrom_reachable _ _ _ lives _ kids
  | weighted status selected lives =>
    rw [evaluate]
    split
    · exact kids
    · exact evaluateAt_reachable _ _ lives _ kids
  | parallel status first second =>
    obtain ⟨main, rest⟩ := List.forall_mem_cons.mp kids
    have beside := accompany_reachable (rest _ List.mem_cons_self)
    rw [evaluate]
    split
    · exact kids
    · dsimp only
      split
      · exact List.forall_mem_cons.mpr ⟨.activated _ main,
          List.forall_mem_singleton.mpr (.activated _ (beside _ _ _))⟩
      · exact List.forall_mem_cons.mpr ⟨.activated _ main,
          List.forall_mem_singleton.mpr (beside _ _ _)⟩
  | condition status unit =>
    rw [evaluate]
    split <;> exact kids
  | action status unit task =>
    rw [evaluate]
    split <;> exact kids

theorem resume_children (wake : Wake) {tree : Tree H} (live : Live H tree) (cx : Context H)
    (kids : ∀ kid ∈ live.children, kid.live.Reachable) :
    ∀ kid ∈ (resume wake tree live cx).live.children, kid.live.Reachable := by
  cases live with
  | relay status kid =>
    rw [resume]
    split
    · exact List.forall_mem_singleton.mpr (.woken wake cx (kids _ List.mem_cons_self))
    · exact kids
  | repeater status deferred kid =>
    have below : kid.Reachable := kids _ List.mem_cons_self
    rw [resume]
    split
    · split
      · exact List.forall_mem_singleton.mpr (repeatChild_reachable below _ none _)
      · exact kids
    · split
      · dsimp only
        split
        · exact List.forall_mem_singleton.mpr
            (repeatChild_reachable (.woken wake cx below) _ deferred _)
        · exact List.forall_mem_singleton.mpr (.woken wake cx below)
      · exact kids
  | loop status timer kid =>
    have below : kid.Reachable := kids _ List.mem_cons_self
    rw [resume]
    split
    · split
      · exact List.forall_mem_singleton.mpr (.activated _ below)
      · exact kids
    · split
      · exact List.forall_mem_singleton.mpr (.woken wake cx below)
      · exact kids
  | gate status unit timer last kid =>
    have below : kid.Reachable := kids _ List.mem_cons_self
    rw [resume]
    split
    · split
      · exact List.forall_mem_singleton.mpr (pollGate_reachable below _ _ _ status unit last cx)
      · exact kids
    · split
      · dsimp only
        split <;> exact List.forall_mem_singleton.mpr (.woken wake cx below)
      · exact kids
  | ordered status lives =>
    rw [resume]
    exact resumeFrom_reachable wake _ _ _ lives cx kids
  | weighted status selected lives =>
    have below := resumeRouted_reachable wake _ lives cx kids
    rw [resume]
    dsimp only
    split <;> exact below
  | parallel status first second =>
    obtain ⟨main, rest⟩ := List.forall_mem_cons.mp kids
    have background : second.Reachable := rest _ List.mem_cons_self
    rw [resume]
    split
    · exact List.forall_mem_cons.mpr ⟨.woken wake cx main,
        List.forall_mem_singleton.mpr (accompany_reachable background _ _ _)⟩
    · split
      · exact List.forall_mem_cons.mpr ⟨main,
          List.forall_mem_singleton.mpr (.woken wake cx background)⟩
      · exact kids
  | condition status unit => exact kids
  | action status unit task =>
    rw [resume]
    split <;> exact kids

theorem stop_children {tree : Tree H} (live : Live H tree) (cx : Context H)
    (kids : ∀ kid ∈ live.children, kid.live.Reachable) :
    ∀ kid ∈ (stop tree live cx).live.children, kid.live.Reachable := by
  cases live with
  | relay | repeater | loop | gate =>
    exact List.forall_mem_singleton.mpr (.stopped _ (kids _ List.mem_cons_self))
  | ordered _ lives | weighted _ _ lives => exact stopAll_reachable _ lives cx kids
  | parallel _ first second =>
    obtain ⟨main, rest⟩ := List.forall_mem_cons.mp kids
    exact List.forall_mem_cons.mpr ⟨.stopped _ main,
      List.forall_mem_singleton.mpr (.stopped _ (rest _ List.mem_cons_self))⟩
  | condition | action => nofun

/-- A call of a node makes nothing but calls of its children. -/
theorem Live.Reachable.children {tree : Tree H} {live : Live H tree} (reached : live.Reachable) :
    ∀ kid ∈ live.children, kid.live.Reachable := by
  induction reached with
  | fresh =>
    cases tree with
    | relay | repeater | loop | gate => exact List.forall_mem_singleton.mpr .fresh
    | ordered _ _ children | weighted _ _ children => exact initial_reachable children
    | parallel =>
      exact List.forall_mem_cons.mpr ⟨.fresh, List.forall_mem_singleton.mpr .fresh⟩
    | condition | action => nofun
  | activated cx _ ih => exact evaluate_children _ cx ih
  | woken wake cx _ ih => exact resume_children wake _ cx ih
  | stopped cx _ ih => exact stop_children _ cx ih

end Children

namespace Session

variable {tree : Tree H} {session : Session H tree}

theorem wake_reachable (due : Wake) (reached : session.live.Reachable) :
    (session.wake due).1.live.Reachable := by
  unfold wake
  split
  · exact .woken due session.cx reached
  · exact reached

theorem perform_reachable (command : Command H) (reached : session.live.Reachable) :
    (session.perform command).live.Reachable := by
  cases command with
  | evaluate => exact .activated session.cx reached
  | tick delta =>
    exact dispatch_keeps (fun session => session.live.Reachable)
      (fun due _ => wake_reachable due) _ _ reached
  | stop => exact .stopped session.cx reached
  | change edit => exact reached

theorem run_reachable (commands : List (Command H)) (reached : session.live.Reachable) :
    (session.run commands).live.Reachable := by
  induction commands generalizing session with
  | nil => exact reached
  | cons command rest ih => exact ih (perform_reachable command reached)

end Session

end ReactiveTree
