import ReactiveTree.Proofs.Holding

/-!
Tasks without a holder. A wake that resumes the child of a repeater may find the repeater still
holding a task for the next activation, because the child ended once already in the same batch of
wakes. If the child ends now, and ends again as soon as it is activated anew, the next activation is
registered a second time, and no node knows of the first task any more.
-/

namespace ReactiveTree

variable {H : Host}

mutual

/-- The handles that are overwritten when a wake resumes the tree. -/
def orphaned (wake : Wake) : (tree : Tree H) → Live H tree → Context H → List Handle
  | .relay _ _ child, .relay _ kid, cx =>
    if child.covers wake.node then orphaned wake child kid cx else []
  | .repeater label child, .repeater _ deferred kid, cx =>
    if child.covers wake.node then
      let turn := resume wake child kid cx
      let again := evaluate child turn.live turn.cx
      (if turn.report.terminal?.isSome then overwritten label deferred again.report else []) ++
        orphaned wake child kid cx
    else []
  | .loop _ _ child, .loop _ _ kid, cx =>
    if child.covers wake.node then orphaned wake child kid cx else []
  | .gate _ _ _ _ child, .gate _ _ _ _ kid, cx =>
    if child.covers wake.node then orphaned wake child kid cx else []
  | .ordered _ _ children, .ordered _ kids, cx => orphanedBelow wake children kids cx
  | .weighted _ _ children, .weighted _ _ kids, cx => orphanedBelow wake children kids cx
  | .parallel _ main background, .parallel _ first second, cx =>
    if main.covers wake.node then orphaned wake main first cx
    else if background.covers wake.node then orphaned wake background second cx
    else []
  | .condition _ _, _, _ | .action _ _, _, _ => []

def orphanedBelow (wake : Wake) :
    (trees : Forest H) → LiveForest H trees → Context H → List Handle
  | .nil, .nil, _ => []
  | .cons tree trees, .cons head tail, cx =>
    if tree.covers wake.node then orphaned wake tree head cx
    else orphanedBelow wake trees tail cx

end

/-- The handles that are still good when the wake is delivered: a timer it is for has fired. -/
def spared (wake : Wake) (handles : List Handle) : List Handle :=
  handles.filter (Handle.waits [wake])

section Spared

variable {wake : Wake}

@[simp] theorem spared_append (first rest : List Handle) :
    spared wake (first ++ rest) = spared wake first ++ spared wake rest :=
  List.filter_append first rest

theorem spared_away {handles : List Handle} (away : ∀ handle ∈ handles, handle.node ≠ wake.node) :
    spared wake handles = handles := by
  apply List.filter_eq_self.mpr
  intro handle member
  have other : (⟨handle.node, handle.task⟩ : Wake) ≠ wake := by
    rintro rfl
    exact away handle member rfl
  simp [Handle.waits, other]

@[simp] theorem spared_tick (label : Label) (task : Option Nat) :
    spared wake (label.holds false task) = label.holds false task := by
  cases task <;> simp [spared, Label.holds, Handle.waits]

theorem spared_timer {label : Label} {timer : Option Nat}
    (kept : ¬ (wake.node = label.id ∧ timer = some wake.task)) :
    spared wake (label.holds true timer) = label.holds true timer := by
  cases timer with
  | none => rfl
  | some task =>
    have other : (⟨label.id, task⟩ : Wake) ≠ wake := by
      rintro rfl
      exact kept ⟨rfl, rfl⟩
    simp [spared, Label.holds, Handle.waits, other]

theorem spared_fired {label : Label} (own : wake.node = label.id) :
    spared wake (label.holds true (some wake.task)) = [] := by
  simp [spared, Label.holds, Handle.waits, ← own]

theorem spared_outside {tree : Tree H} (live : Live H tree)
    (outside : wake.node ∉ tree.labels.map Label.id) : spared wake live.handles = live.handles := by
  apply spared_away
  intro handle member same
  exact outside (same ▸ handles_node live handle member)

theorem spared_uncovered {tree : Tree H} (live : Live H tree) (numbered : tree.Numbered)
    (uncovered : ¬ tree.covers wake.node) : spared wake live.handles = live.handles :=
  spared_outside live (mt numbered.covers uncovered)

theorem spared_below {child : Tree H} (kid : Live H child) {id : Nat}
    (before : ∀ below ∈ child.labels.map Label.id, id < below) (own : wake.node = id) :
    spared wake kid.handles = kid.handles :=
  spared_outside kid fun member => Nat.lt_irrefl _ (before _ (own ▸ member))

theorem spared_outside_all {trees : Forest H} (lives : LiveForest H trees)
    (outside : wake.node ∉ trees.labels.map Label.id) :
    spared wake lives.handles = lives.handles := by
  apply spared_away
  intro handle member same
  exact outside (same ▸ handles_all_node lives handle member)

end Spared

section Resumption

variable {due : List Wake} {lost : List Handle} {wake : Wake} {label : Label} {child : Tree H}
  {status : Status} {timer : Option Nat} {kid : Live H child} {cx : Context H}

/-- No task is left without a holder when the wake resumes the tree, apart from those that it
overwrites. -/
def WakeBalanced (due : List Wake) (lost : List Handle) (wake : Wake) (tree : Tree H)
    (live : Live H tree) (cx : Context H) : Prop :=
  ∀ ⦃held : List Handle⦄, Balanced due (spared wake live.handles ++ held) lost cx.agenda →
    Balanced due ((resume wake tree live cx).live.handles ++ held)
      (orphaned wake tree live cx ++ lost) (resume wake tree live cx).cx.agenda

theorem relay_balanced {role : Relay} (below : child.Numbered)
    (resumed : WakeBalanced due lost wake child kid cx) :
    WakeBalanced due lost wake (.relay role label child) (.relay status kid) cx := by
  intro held balanced
  rw [resume, orphaned]
  split
  · have turned := resumed balanced
    simpa only [Live.handles, Context.announceAll_agenda] using turned
  · rename_i uncovered
    rw [Live.handles, spared_uncovered kid below uncovered] at balanced
    exact balanced

theorem repeater_balanced {deferred : Option Nat}
    (numbered : (Tree.repeater label child).Numbered)
    (resumed : WakeBalanced due lost wake child kid cx) :
    WakeBalanced due lost wake (.repeater label child) (.repeater status deferred kid) cx := by
  intro held balanced
  obtain ⟨before, below⟩ := numbered
  rw [Live.handles, spared_append, spared_tick, List.append_assoc] at balanced
  rw [resume, orphaned]
  by_cases own : wake.node = label.id
  · have uncovered := own ▸ Tree.Numbered.not_covers before
    rw [if_pos own, if_neg uncovered, List.nil_append]
    rw [spared_below kid before own] at balanced
    split
    · have active := repeatChild_balanced Live.handles label none
        (fun kid cx => evaluate_balanced child kid cx) kid (cx.cancel deferred)
        (balanced.cancel_held label false deferred)
      simpa only [Live.handles, List.append_assoc, overwritten_none, List.nil_append] using active
    · simpa only [Live.handles, List.append_assoc] using balanced
  · rw [if_neg own]
    split
    · have turned := (resumed balanced.swap).swap
      dsimp only
      cases ended : (resume wake child kid cx).report.terminal? with
      | none =>
        simpa only [Live.handles, List.append_assoc, Option.isSome_none, Bool.false_eq_true,
          if_false, List.nil_append] using turned
      | some verdict =>
        -- nowhere else is a deferred task kept across an activation of the child: here it is not
        -- cancelled first, and a child that ends at once puts a second one in its place
        have active := repeatChild_balanced Live.handles label deferred
          (fun kid cx => evaluate_balanced child kid cx) _ _ turned
        simpa only [Live.handles, List.append_assoc, Option.isSome_some, if_true] using active
    · rename_i uncovered
      rw [spared_uncovered kid below uncovered] at balanced
      simpa only [Live.handles, List.append_assoc, List.nil_append] using balanced

theorem loop_balanced {period : Nat} (numbered : (Tree.loop label period child).Numbered)
    (resumed : WakeBalanced due lost wake child kid cx) :
    WakeBalanced due lost wake (.loop label period child) (.loop status timer kid) cx := by
  intro held balanced
  obtain ⟨before, below⟩ := numbered
  rw [Live.handles, spared_append, List.append_assoc] at balanced
  rw [resume, orphaned]
  by_cases own : wake.node = label.id
  · have uncovered := own ▸ Tree.Numbered.not_covers before
    rw [if_pos own, if_neg uncovered, List.nil_append]
    rw [spared_below kid before own] at balanced
    by_cases fired : timer = some wake.task
    · rw [fired, spared_fired own] at balanced
      rw [if_pos fired]
      have active := cycleChild_balanced Live.handles
        (fun kid cx => evaluate_balanced child kid cx) label period kid cx balanced
      simpa only [Live.handles, List.append_assoc] using active
    · rw [spared_timer fun both => fired both.2] at balanced
      rw [if_neg fired]
      simpa only [Live.handles, List.append_assoc] using balanced
  · rw [if_neg own]
    rw [spared_timer fun both => own both.1] at balanced
    split
    · have turned := (resumed balanced.swap).swap
      simpa only [Live.handles, List.append_assoc] using turned
    · rename_i uncovered
      rw [spared_uncovered kid below uncovered] at balanced
      simpa only [Live.handles, List.append_assoc, List.nil_append] using balanced

theorem gate_balanced {bound : H.Condition} {mode : PollMode} {period : Nat} {unit : H.Condition}
    {last : Status} (numbered : (Tree.gate label bound mode period child).Numbered)
    (resumed : WakeBalanced due lost wake child kid cx) :
    WakeBalanced due lost wake (.gate label bound mode period child)
      (.gate status unit timer last kid) cx := by
  intro held balanced
  obtain ⟨before, below⟩ := numbered
  rw [Live.handles, spared_append, List.append_assoc] at balanced
  rw [resume, orphaned]
  by_cases own : wake.node = label.id
  · have uncovered := own ▸ Tree.Numbered.not_covers before
    rw [if_pos own, if_neg uncovered, List.nil_append]
    rw [spared_below kid before own] at balanced
    by_cases fired : timer = some wake.task
    · rw [fired, spared_fired own] at balanced
      rw [if_pos fired]
      have polled := pollGate_balanced Live.handles
        (fun kid cx => evaluate_balanced child kid cx) (fun kid cx => stop_keeps child kid cx)
        label mode period status unit last kid cx balanced
      simpa only [Live.handles, List.append_assoc] using polled
    · rw [spared_timer fun both => fired both.2] at balanced
      rw [if_neg fired]
      simpa only [Live.handles, List.append_assoc] using balanced
  · rw [if_neg own]
    rw [spared_timer fun both => own both.1] at balanced
    split
    · have turned := (resumed balanced.swap).swap
      dsimp only
      rw [← Context.announceAll_agenda] at turned
      -- what the child reported may end the polling, which gives up the timer of the gate
      split
      · exact turned.cancel_held label true timer
      · simpa only [Live.handles, List.append_assoc] using turned
    · rename_i uncovered
      rw [spared_uncovered kid below uncovered] at balanced
      simpa only [Live.handles, List.append_assoc, List.nil_append] using balanced

theorem parallel_balanced {main background : Tree H} {first : Live H main}
    {second : Live H background} (numbered : (Tree.parallel label main background).Numbered)
    (led : WakeBalanced due lost wake main first cx)
    (attended : WakeBalanced due lost wake background second cx) :
    WakeBalanced due lost wake (.parallel label main background)
      (.parallel status first second) cx := by
  intro held balanced
  obtain ⟨_, left, right, beside⟩ := numbered
  rw [Live.handles, spared_append, List.append_assoc] at balanced
  rw [resume, orphaned]
  split
  · rename_i covered
    -- the main child covers no id beside it, so the wake spends nothing of the background child
    rw [spared_outside second fun member => beside _ member covered] at balanced
    have turned := (led balanced).swap
    have accompanied := accompany_keeps
      (fun kid agenda => Balanced due (kid.handles ++ _) _ agenda)
      (fun kid cx => evaluate_balanced background kid cx)
      (fun kid cx => stop_keeps background kid cx) label
      (resume wake main first cx).report second _ turned
    rw [Live.handles, List.append_assoc]
    exact accompanied.swap
  · rename_i uncovered
    rw [spared_uncovered first left uncovered] at balanced
    split
    · have turned := (attended balanced.swap).swap
      simpa only [Live.handles, List.append_assoc] using turned
    · rename_i outside
      rw [spared_uncovered second right outside] at balanced
      simpa only [Live.handles, List.append_assoc, List.nil_append] using balanced

mutual

theorem resume_balanced (wake : Wake) : (tree : Tree H) → tree.Numbered →
    (live : Live H tree) → (cx : Context H) → WakeBalanced due lost wake tree live cx
  | .relay _ _ child, numbered, .relay _ kid, cx =>
    relay_balanced numbered.2 (resume_balanced wake child numbered.2 kid cx)
  | .repeater _ child, numbered, .repeater _ _ kid, cx =>
    repeater_balanced numbered (resume_balanced wake child numbered.2 kid cx)
  | .loop _ _ child, numbered, .loop _ _ kid, cx =>
    loop_balanced numbered (resume_balanced wake child numbered.2 kid cx)
  | .gate _ _ _ _ child, numbered, .gate _ _ _ _ kid, cx =>
    gate_balanced numbered (resume_balanced wake child numbered.2 kid cx)
  | .ordered order label children, numbered, .ordered _ kids, cx => by
    intro held balanced
    rw [resume, orphaned]
    exact resumeFrom_balanced wake order label children numbered.2 kids cx balanced
  | .weighted _ _ children, numbered, .weighted _ _ kids, cx => by
    intro held balanced
    have turned := resumeRouted_balanced wake children numbered.2 kids cx balanced
    rw [resume, orphaned]
    dsimp only
    split
    · simpa only [Live.handles, Context.announceAll_agenda] using turned
    · exact turned
  | .parallel _ main background, numbered, .parallel _ first second, cx =>
    parallel_balanced numbered (resume_balanced wake main numbered.2.1 first cx)
      (resume_balanced wake background numbered.2.2.1 second cx)
  | .condition _ _, _, .condition _ _, _ => fun _ balanced => balanced
  | .action label _, _, .action status unit task, cx => by
    intro held balanced
    rw [Live.handles, spared_tick] at balanced
    rw [resume]
    split
    · exact stepAction_balanced label .update status unit task cx balanced
    · exact balanced

theorem resumeFrom_balanced (wake : Wake) (order : Order) (label : Label) : (trees : Forest H) →
    trees.Numbered → (lives : LiveForest H trees) → (cx : Context H) → {held : List Handle} →
    Balanced due (spared wake lives.handles ++ held) lost cx.agenda →
    Balanced due ((resumeFrom wake order label trees lives cx).live.handles ++ held)
      (orphanedBelow wake trees lives cx ++ lost)
      (resumeFrom wake order label trees lives cx).cx.agenda
  | .nil, _, .nil, _, _, balanced => balanced
  | .cons tree trees, numbered, .cons head tail, cx, held, balanced => by
    obtain ⟨inside, after, apart⟩ := numbered
    rw [LiveForest.handles, spared_append, List.append_assoc] at balanced
    rw [resumeFrom, orphanedBelow]
    split
    · rename_i covered
      rw [spared_outside_all tail fun member => apart _ member covered] at balanced
      have turned := (resume_balanced wake tree inside head cx balanced).swap
      have heard := react_keeps (fun later agenda => Balanced due (later.handles ++ _) _ agenda)
        (fun later cx => stopAll_keeps trees later cx) order label
        (resume wake tree head cx).report tail _ turned
      dsimp only
      split
      · rw [LiveForest.handles, List.append_assoc]
        exact (runFrom_balanced order label trees _ _ heard).swap
      · rw [LiveForest.handles, List.append_assoc]
        exact heard.swap
    · rename_i uncovered
      rw [spared_uncovered head inside uncovered] at balanced
      rw [LiveForest.handles, List.append_assoc]
      exact (resumeFrom_balanced wake order label trees after tail cx balanced.swap).swap

theorem resumeRouted_balanced (wake : Wake) : (trees : Forest H) →
    trees.Numbered → (lives : LiveForest H trees) → (cx : Context H) → {held : List Handle} →
    Balanced due (spared wake lives.handles ++ held) lost cx.agenda →
    Balanced due ((resumeRouted wake trees lives cx).live.handles ++ held)
      (orphanedBelow wake trees lives cx ++ lost) (resumeRouted wake trees lives cx).cx.agenda
  | .nil, _, .nil, _, _, balanced => balanced
  | .cons tree trees, numbered, .cons head tail, cx, held, balanced => by
    obtain ⟨inside, after, apart⟩ := numbered
    rw [LiveForest.handles, spared_append, List.append_assoc] at balanced
    rw [resumeRouted, orphanedBelow]
    split
    · rename_i covered
      rw [spared_outside_all tail fun member => apart _ member covered] at balanced
      rw [LiveForest.handles, List.append_assoc]
      exact resume_balanced wake tree inside head cx balanced
    · rename_i uncovered
      rw [spared_uncovered head inside uncovered] at balanced
      rw [LiveForest.handles, List.append_assoc]
      exact (resumeRouted_balanced wake trees after tail cx balanced.swap).swap

end

end Resumption

end ReactiveTree
