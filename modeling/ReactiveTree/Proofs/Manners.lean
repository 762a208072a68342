import ReactiveTree.Proofs.Composure

/-!
Which trees settle, speak and are quiet. Whether a node does is told by its kind and by what its
children do: an inverter passes everything on and a function nothing but verdicts, a gate has its
word at every activation and an action none, and a repeater lets go of everything when it is
stopped. What the rules say of a tree can be computed.
-/

namespace ReactiveTree

variable {H : Host} {label : Label}

section Settling

variable {child main background : Tree H} {children : Forest H}

theorem relay_settles {role : Relay} (settles : child.Settles) :
    (Tree.relay role label child).Settles := by
  intro live reached still
  cases live with | relay status kid
  exact settles kid (reached.children _ List.mem_cons_self)
    fun runs => still (reached.composed (.inr settles) runs)

theorem repeater_settles : (Tree.repeater label child).Settles := by
  intro live reached still
  cases live with | repeater status deferred kid
  obtain ⟨own, below⟩ := reached.composed still
  exact List.append_eq_nil_iff.mpr ⟨holds_eq_nil.mpr own, below⟩

theorem loop_settles {period : Nat} : (Tree.loop label period child).Settles := by
  intro live reached still
  cases live with | loop status timer kid
  obtain ⟨own, below⟩ := reached.composed still
  exact List.append_eq_nil_iff.mpr ⟨holds_eq_nil.mpr own, below⟩

theorem gate_settles {bound : H.Condition} {period : Nat} (settles : child.Settles) :
    (Tree.gate label bound .once period child).Settles := by
  intro live reached still
  cases live with | gate status unit timer last kid
  have composed : PollMode.once.Composed child.Speaks status last timer kid.status :=
    reached.composed
  exact List.append_eq_nil_iff.mpr ⟨holds_eq_nil.mpr (composed.once rfl),
    settles kid (reached.children _ List.mem_cons_self) fun runs => still (composed.follows runs)⟩

theorem ordered_settles {order : Order} (settles : children.Settles) :
    (Tree.ordered order label children).Settles := by
  intro live reached still
  cases live with | ordered status kids
  exact settled_unheld_all settles reached.children (reached.composed.ends (.inl settles) still)

theorem weighted_settles {bounds : List Single} (settles : children.Settles) :
    (Tree.weighted label bounds children).Settles := by
  intro live reached still
  cases live with | weighted status selected kids
  have chosen : Chosen status selected kids.members := reached.composed
  exact settled_unheld_all settles reached.children (chosen.still settles still)

theorem parallel_settles (settles : main.Settles) :
    (Tree.parallel label main background).Settles := by
  intro live reached still
  cases live with | parallel status first second
  have ended : first.status ≠ .running := fun runs => still (reached.composed.1 runs)
  exact List.append_eq_nil_iff.mpr
    ⟨settles first (reached.children _ List.mem_cons_self) ended, reached.composed.2 ended⟩

theorem condition_settles {bound : H.Condition} : (Tree.condition label bound).Settles := by
  intro live _ _
  cases live
  rfl

theorem action_settles {bound : H.Action} : (Tree.action label bound).Settles := by
  intro live reached still
  cases live with | action status unit task
  exact holds_eq_nil.mpr (reached.composed still)

end Settling

section Speaking

variable {child main background : Tree H} {children : Forest H}

theorem synchronous_speaks {tree : Tree H} (synchronous : tree.Synchronous)
    (weighed : tree.Weighed) : tree.Speaks := by
  intro live cx reached _
  have idle := (reached.attended weighed).idle synchronous
  rw [(evaluate_decides tree synchronous weighed live cx idle).report]
  exact List.append_ne_nil_of_right_ne_nil _ (List.cons_ne_nil _ _)

theorem inverse_speaks (speaks : child.Speaks) : (Tree.relay .inverse label child).Speaks := by
  intro live cx reached still
  cases live with | relay status kid
  have ended : kid.status ≠ .running := fun runs => still (reached.composed (.inl rfl) runs)
  have spoken := speaks kid (cx.announce label Relay.inverse.kind .running)
    (reached.children _ List.mem_cons_self) ended
  have idle : status ≠ .running := still
  rw [evaluate, if_neg (not_isRunning idle)]
  exact hand_inverse_ne_nil (evaluate_agrees child kid _).orderly spoken

theorem repeater_speaks : (Tree.repeater label child).Speaks := by
  intro live cx _ still
  cases live with | repeater status deferred kid
  have idle : status ≠ .running := still
  rw [evaluate, if_neg (not_isRunning idle)]
  exact List.cons_ne_nil _ _

theorem loop_speaks {period : Nat} : (Tree.loop label period child).Speaks := by
  intro live cx _ still
  cases live with | loop status timer kid
  have idle : status ≠ .running := still
  rw [evaluate, if_neg (not_isRunning idle)]
  exact List.cons_ne_nil _ _

theorem gate_speaks {bound : H.Condition} {mode : PollMode} {period : Nat} :
    (Tree.gate label bound mode period child).Speaks := by
  intro live cx _ still
  cases live with | gate status unit timer last kid
  have idle : status ≠ .running := still
  rw [evaluate, if_neg (not_isRunning idle)]
  exact pollGate_speaks rfl

theorem condition_idle {bound : H.Condition} {live : Live H (.condition label bound)}
    (reached : live.Reachable) : live.status ≠ .running := by
  have attended := reached.attended trivial
  cases live with | condition status unit
  exact attended

theorem condition_speaks {bound : H.Condition} : (Tree.condition label bound).Speaks := by
  intro live cx _ still
  cases live with | condition status unit
  have idle : status ≠ .running := still
  rw [evaluate, if_neg (not_isRunning idle)]
  exact runCondition_speaks label unit cx

theorem selector_speaks (speaks : children.Speaks) :
    (Tree.ordered .selector label children).Speaks := by
  intro live cx reached still
  cases live with | ordered status kids
  have idle : status ≠ .running := still
  rw [evaluate, if_neg (not_isRunning idle)]
  exact runFrom_speaks label children speaks kids _ reached.children
    (reached.composed.ends (.inr ⟨rfl, speaks⟩) still)

/-- The first child of a sequencer is heard before any other, and a sequencer passes on all that it
hears. It must not have gone on to run since the sequencer ended. -/
theorem sequencer_speaks {first : Tree H} {rest : Forest H} (speaks : first.Speaks)
    (rests : (∀ live : Live H first, live.Reachable → live.status ≠ .running) ∨
      (Forest.cons first rest).Settles) :
    (Tree.ordered .sequencer label (.cons first rest)).Speaks := by
  intro live cx reached still
  cases live with | ordered status kids
  cases kids with | cons head tail
  have below : head.Reachable := reached.children _ List.mem_cons_self
  have ended : head.status ≠ .running := by
    rcases rests with never | settles
    · exact never head below
    · exact reached.composed.ends (.inl settles) still _ List.mem_cons_self
  have spoken := speaks head (cx.announce label Order.sequencer.kind .running) below ended
  have heard {later : LiveForest H rest} {cx' : Context H} :
      (Order.sequencer.react label (stopAll rest)
        (evaluate first head (cx.announce label Order.sequencer.kind .running)).report
        later cx').report ≠ [] :=
    (react_speaks (evaluate_agrees first head _).orderly spoken).resolve_right
      fun goes => nomatch goes.1
  have idle : status ≠ .running := still
  rw [evaluate, if_neg (not_isRunning idle), runFrom]
  dsimp only
  split
  · exact List.append_ne_nil_of_left_ne_nil heard _
  · exact heard

theorem evaluateAt_speaks (trees : Forest H) (speaks : trees.Speaks) (index : Nat)
    (inside : index < trees.length) (lives : LiveForest H trees) (cx : Context H)
    (reached : lives.Reachable) (still : ∀ kid ∈ lives.members, kid.live.status ≠ .running) :
    (evaluateAt trees index lives cx).report ≠ [] := by
  induction lives generalizing index with
  | nil => cases inside
  | cons head tail ih =>
    obtain ⟨spoken, others⟩ := List.forall_mem_cons.mp speaks
    obtain ⟨first, rest⟩ := reachable_cons.mp reached
    obtain ⟨here, beyond⟩ := List.forall_mem_cons.mp still
    cases index with
    | zero => exact spoken head cx first here
    | succ index => exact ih others index (Nat.lt_of_succ_lt_succ inside) rest beyond

theorem guarded_speaks {guard : Label} {bound : H.Condition} {rest : Forest H} :
    (Tree.ordered .sequencer label (.cons (.condition guard bound) rest)).Speaks :=
  sequencer_speaks condition_speaks (.inl fun _ reached => condition_idle reached)

theorem weighted_speaks {bounds : List Single} (fits : bounds.length = children.length)
    (filled : 0 < bounds.length) (settles : children.Settles) (speaks : children.Speaks) :
    (Tree.weighted label bounds children).Speaks := by
  intro live cx reached still
  cases live with | weighted status selected kids
  have chosen : Chosen status selected kids.members := reached.composed
  have idle : status ≠ .running := still
  rw [evaluate, if_neg (not_isRunning idle)]
  dsimp only
  rw [(evaluateAt_orderly children _ kids _).reported]
  exact evaluateAt_speaks children speaks _ (fits ▸ Weights.pick_lt filled _) kids _
    reached.children (chosen.still settles still)

theorem parallel_speaks (speaks : main.Speaks) :
    (Tree.parallel label main background).Speaks := by
  intro live cx reached still
  cases live with | parallel status first second
  have spoken := speaks first (cx.announce label .simpleParallel .running)
    (reached.children _ List.mem_cons_self) fun runs => still (reached.composed.1 runs)
  have idle : status ≠ .running := still
  rw [evaluate, if_neg (not_isRunning idle)]
  dsimp only
  rw [accompany_report, (evaluate_agrees main first _).orderly.reported]
  split <;> exact spoken

end Speaking

section Quiet

variable {child main background : Tree H} {children : Forest H}

theorem Tree.Settles.quiet {tree : Tree H} (settles : tree.Settles) (weighed : tree.Weighed) :
    tree.Quiet :=
  fun live reached still =>
    idle_of_unheld live (reached.attended weighed) (settles live reached still)

theorem inverse_quiet (quiet : child.Quiet) : (Tree.relay .inverse label child).Quiet := by
  intro live reached still
  cases live with | relay status kid
  exact (idle_cons rfl).mpr ⟨still, quiet kid (reached.children _ List.mem_cons_self)
    fun runs => still (reached.composed (.inl rfl) runs)⟩

theorem gate_quiet {bound : H.Condition} {mode : PollMode} {period : Nat} (quiet : child.Quiet) :
    (Tree.gate label bound mode period child).Quiet := by
  intro live reached still
  cases live with | gate status unit timer last kid
  have composed : mode.Composed child.Speaks status last timer kid.status := reached.composed
  exact (idle_cons rfl).mpr ⟨still, quiet kid (reached.children _ List.mem_cons_self)
    fun runs => still (composed.follows runs)⟩

theorem selector_quiet (speaks : children.Speaks) (quiet : ∀ child ∈ children.toList, child.Quiet) :
    (Tree.ordered .selector label children).Quiet := by
  intro live reached still
  cases live with | ordered status kids
  have ended := reached.composed.ends (.inr ⟨rfl, speaks⟩) still
  exact (idle_cons rfl).mpr ⟨still, forest_idle_iff.mpr fun kid member =>
    quiet kid.tree (member_tree member) kid.live (reached.children kid member) (ended kid member)⟩

theorem parallel_quiet (weighed : background.Weighed) (quiet : main.Quiet) :
    (Tree.parallel label main background).Quiet := by
  intro live reached still
  cases live with | parallel status first second
  obtain ⟨here, beside⟩ := List.forall_mem_cons.mp reached.children
  have ended : first.status ≠ .running := fun runs => still (reached.composed.1 runs)
  exact (idle_cons rfl).mpr ⟨still, List.forall_mem_append.mpr ⟨quiet first here ended,
    idle_of_unheld second ((beside _ List.mem_cons_self).attended weighed)
      (reached.composed.2 ended)⟩⟩

end Quiet

section Checks

mutual

/-- The rules as a check, which may refuse a tree that settles. -/
def Tree.isSettling : Tree H → Bool
  | .relay _ _ child => child.isSettling
  | .gate _ _ mode _ child => mode = .once && child.isSettling
  | .ordered _ _ children | .weighted _ _ children => children.isSettling
  | .parallel _ main _ => main.isSettling
  | .repeater _ _ | .loop _ _ _ | .condition _ _ | .action _ _ => true

def Forest.isSettling : Forest H → Bool
  | .nil => true
  | .cons tree trees => tree.isSettling && trees.isSettling

end

mutual

def Tree.isSpeaking : Tree H → Bool
  | .relay .inverse _ child => child.isSpeaking
  -- these are silent while the child runs, so it must not
  | .relay .root _ child | .relay .function _ child => child.nodes.all (·.kind.isSynchronous)
  | .ordered .selector _ children => children.isSpeaking
  | .ordered .sequencer _ (.cons (.condition _ _) _) => true
  | .ordered .sequencer _ (.cons first rest) =>
    first.isSpeaking && (Forest.cons first rest).isSettling
  | .weighted _ _ children => children.isSettling && children.isSpeaking
  | .parallel _ main _ => main.isSpeaking
  | .repeater _ _ | .loop _ _ _ | .gate _ _ _ _ _ | .condition _ _ => true
  | .ordered .sequencer _ .nil | .action _ _ => false

def Forest.isSpeaking : Forest H → Bool
  | .nil => true
  | .cons tree trees => tree.isSpeaking && trees.isSpeaking

end

mutual

def Tree.isQuiet : Tree H → Bool
  | .relay .inverse _ child | .gate _ _ _ _ child => child.isQuiet
  | .ordered .selector label children =>
    (Tree.ordered .selector label children).isSettling ||
      children.isSpeaking && children.isQuiet
  | .parallel _ main _ => main.isQuiet
  | tree => tree.isSettling

def Forest.isQuiet : Forest H → Bool
  | .nil => true
  | .cons tree trees => tree.isQuiet && trees.isQuiet

end

mutual

theorem settles_of_check : (tree : Tree H) → tree.isSettling → tree.Settles
  | .relay _ _ child, check => relay_settles (settles_of_check child check)
  | .repeater _ _, _ => repeater_settles
  | .loop _ _ _, _ => loop_settles
  | .gate _ _ mode _ child, check => by
    obtain ⟨once, below⟩ := Bool.and_eq_true_iff.mp check
    obtain rfl := of_decide_eq_true once
    exact gate_settles (settles_of_check child below)
  | .ordered _ _ children, check => ordered_settles (settles_of_check_all children check)
  | .weighted _ _ children, check => weighted_settles (settles_of_check_all children check)
  | .parallel _ main _, check => parallel_settles (settles_of_check main check)
  | .condition _ _, _ => condition_settles
  | .action _ _, _ => action_settles

theorem settles_of_check_all : (trees : Forest H) → trees.isSettling → trees.Settles
  | .nil, _ => List.forall_mem_nil _
  | .cons tree trees, check => by
    obtain ⟨here, after⟩ := Bool.and_eq_true_iff.mp check
    exact List.forall_mem_cons.mpr
      ⟨settles_of_check tree here, settles_of_check_all trees after⟩

end

theorem silent_relay_speaks {role : Relay} (weighed : child.Weighed)
    (check : child.nodes.all (·.kind.isSynchronous)) : (Tree.relay role label child).Speaks := by
  refine synchronous_speaks ?_ weighed
  exact List.forall_mem_cons.mpr ⟨by cases role <;> rfl, List.all_eq_true.mp check⟩

mutual

theorem speaks_of_check : (tree : Tree H) → tree.Weighed → tree.isSpeaking → tree.Speaks
  | .relay .inverse _ child, weighed, check => inverse_speaks (speaks_of_check child weighed check)
  | .relay .root _ _, weighed, check | .relay .function _ _, weighed, check =>
    silent_relay_speaks weighed check
  | .repeater _ _, _, _ => repeater_speaks
  | .loop _ _ _, _, _ => loop_speaks
  | .gate _ _ _ _ _, _, _ => gate_speaks
  | .ordered .selector _ children, weighed, check =>
    selector_speaks (speaks_of_check_all children weighed check)
  | .ordered .sequencer _ (.cons first rest), weighed, check => by
    have spoken := speaks_of_check first weighed.1
    cases first with
    | condition _ _ => exact guarded_speaks
    | _ =>
      obtain ⟨speaks, settles⟩ := Bool.and_eq_true_iff.mp check
      exact sequencer_speaks (spoken speaks) (.inr (settles_of_check_all _ settles))
  | .weighted _ _ children, weighed, check => by
    obtain ⟨settles, speaks⟩ := Bool.and_eq_true_iff.mp check
    exact weighted_speaks weighed.1 weighed.2.1 (settles_of_check_all children settles)
      (speaks_of_check_all children weighed.2.2 speaks)
  | .parallel _ main _, weighed, check => parallel_speaks (speaks_of_check main weighed.1 check)
  | .condition _ _, _, _ => condition_speaks

theorem speaks_of_check_all : (trees : Forest H) → trees.Weighed → trees.isSpeaking → trees.Speaks
  | .nil, _, _ => List.forall_mem_nil _
  | .cons tree trees, weighed, check => by
    obtain ⟨here, after⟩ := Bool.and_eq_true_iff.mp check
    exact List.forall_mem_cons.mpr ⟨speaks_of_check tree weighed.1 here,
      speaks_of_check_all trees weighed.2 after⟩

end

mutual

theorem quiet_of_check : (tree : Tree H) → tree.Weighed → tree.isQuiet → tree.Quiet
  | .relay .inverse _ child, weighed, check => inverse_quiet (quiet_of_check child weighed check)
  | .gate _ _ _ _ child, weighed, check => gate_quiet (quiet_of_check child weighed check)
  | .ordered .selector label children, weighed, check => by
    rcases Bool.or_eq_true_iff.mp check with settles | heard
    · exact (settles_of_check _ settles).quiet weighed
    · obtain ⟨speaks, quiet⟩ := Bool.and_eq_true_iff.mp heard
      exact selector_quiet (speaks_of_check_all children weighed speaks)
        (quiet_of_check_all children weighed quiet)
  | .parallel _ main _, weighed, check =>
    parallel_quiet weighed.2 (quiet_of_check main weighed.1 check)
  | .relay .root _ _, weighed, check | .relay .function _ _, weighed, check
  | .repeater _ _, weighed, check | .loop _ _ _, weighed, check
  | .ordered .sequencer _ _, weighed, check | .weighted _ _ _, weighed, check
  | .condition _ _, weighed, check | .action _ _, weighed, check =>
    (settles_of_check _ check).quiet weighed

theorem quiet_of_check_all : (trees : Forest H) → trees.Weighed → trees.isQuiet →
    ∀ tree ∈ trees.toList, tree.Quiet
  | .nil, _, _ => List.forall_mem_nil _
  | .cons tree trees, weighed, check => by
    obtain ⟨here, after⟩ := Bool.and_eq_true_iff.mp check
    exact List.forall_mem_cons.mpr
      ⟨quiet_of_check tree weighed.1 here, quiet_of_check_all trees weighed.2 after⟩

end

end Checks

end ReactiveTree
