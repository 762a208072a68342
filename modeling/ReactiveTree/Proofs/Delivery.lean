import ReactiveTree.Proofs.Conduct

/-!
Calls on a tree as one of its actions lives through them. An activation of the tree makes the action
go through stages. A wake is handed down to the one node that has its id, so it comes to the action
that it is for before anything else happens, and to no other one; the nodes above go on afterwards.
-/

namespace ReactiveTree

variable {H : Host}

section Moves

variable {id floor : Nat} {past : List Deed} {story : Story floor}

theorem Reached.hush {frame before after : List Posture} {cx cx' : Context H}
    (reached : Reached id past story (before ++ frame) cx)
    (hushed : Hushed id before cx after cx') :
    Reached id past story (after ++ frame) cx' := by
  obtain ⟨task, deeds, posed, did, told⟩ := reached.follows
  have recent : floor ≤ cx'.agenda.nextId := hushed.still.symm ▸ reached.recent
  rcases List.append_eq_singleton_iff.mp posed with ⟨rfl, rfl⟩ | ⟨rfl, rfl⟩
  · obtain ⟨same, rfl⟩ := hushed.deeds_nil
    exact ⟨recent, task, deeds, rfl, same.trans did, told⟩
  · obtain ⟨more, halted, did', rfl⟩ := hushed.deeds_singleton
    rw [did, List.append_assoc] at did'
    refine ⟨recent, none, deeds ++ more, rfl, did', ?_⟩
    cases task with
    | none =>
      cases halted with
      | idle => rwa [List.append_nil]
      | resets => exact story.goesOn told .resets
    | some task =>
      cases halted with
      | halts answer => exact story.goesOn told (.halts task answer)

section Rules

variable {σ : Type} (postures : σ → List Posture) {frame : List Posture}
  {activate : σ → Context H → Turn H σ} {halt : σ → Context H → Stopped H σ}
  (activates : ∀ kid cx, Reached id past story (postures kid ++ frame) cx →
    Reached id past story (postures (activate kid cx).live ++ frame) (activate kid cx).cx)
  (halts : ∀ kid cx, Reached id past story (postures kid ++ frame) cx →
    Reached id past story (postures (halt kid cx).live ++ frame) (halt kid cx).cx)

include halts in
theorem react_reached (order : Order) (label : Label) (report : Report) (later : σ)
    (cx : Context H) (reached : Reached id past story (postures later ++ frame) cx) :
    Reached id past story (postures (order.react label halt report later cx).later ++ frame)
      (order.react label halt report later cx).cx := by
  induction report generalizing later cx with
  | nil => exact reached
  | cons status report ih =>
    cases order with
    | selector =>
      cases status with
      | success => exact (halts _ _ reached).announce label (by decide) .success
      | running => exact ih _ _ ((halts _ _ reached).announce label (by decide) .running)
      | failure => exact reached
      | _ => exact ih _ _ reached
    | sequencer =>
      cases status with
      | success => exact reached.announce label (by decide) .running
      | running => exact ih _ _ (reached.announce label (by decide) .running)
      | failure => exact (halts _ _ reached).announce label (by decide) .failure
      | _ => exact ih _ _ reached

include activates halts in
theorem accompany_reached (label : Label) (report : Report) (background : σ) (cx : Context H)
    (reached : Reached id past story (postures background ++ frame) cx) :
    Reached id past story
      (postures (accompany label activate halt report background cx).live ++ frame)
      (accompany label activate halt report background cx).cx := by
  induction report generalizing background cx with
  | nil => exact reached
  | cons status report ih =>
    cases status with
    | success | failure => exact ih _ _ ((halts _ _ reached).announce label (by decide) _)
    | running => exact ih _ _ ((activates _ _ reached).announce label (by decide) _)
    | _ => exact ih _ _ reached

include activates in
theorem repeatChild_reached (label : Label) (deferred : Option Nat) (kid : σ) (cx : Context H)
    (reached : Reached id past story (postures kid ++ frame) cx) :
    Reached id past story (postures (repeatChild label activate deferred kid cx).kid ++ frame)
      (repeatChild label activate deferred kid cx).cx := by
  have active := activates kid cx reached
  unfold repeatChild
  dsimp only
  split
  · exact active.everyTick label
  · exact active

include activates in
theorem cycleChild_reached (label : Label) (period : Nat) (kid : σ) (cx : Context H)
    (reached : Reached id past story (postures kid ++ frame) cx) :
    Reached id past story (postures (cycleChild label period activate kid cx).kid ++ frame)
      (cycleChild label period activate kid cx).cx :=
  (activates _ _ (reached.announce label (by decide) .running)).after label period

include activates halts in
theorem pollGate_reached (label : Label) (mode : PollMode) (period : Nat) (status : Status)
    (unit : H.Condition) (last : Status) (kid : σ) (cx : Context H)
    (reached : Reached id past story (postures kid ++ frame) cx) :
    let polled := pollGate label mode period activate halt status unit last kid cx
    Reached id past story (postures polled.kid ++ frame) polled.cx := by
  have other : NodeKind.loopConditionNode ≠ .actionNode := nofun
  have asked := reached.poll label unit
  match answer : (cx.poll label unit).answer with
  | none =>
    rw [pollGate_faulted answer]
    exact (halts _ _ asked).announce label other .warning
  | some true =>
    by_cases succeeded : last = .success
    · rw [pollGate_content answer succeeded]
      exact asked.rearm label mode period false
    · rw [pollGate_opens answer succeeded]
      have active := activates _ _ (asked.announce label other .running)
      exact (active.announceAll label other _).rearm label mode period _
  | some false =>
    by_cases failed : last = .failure
    · rw [pollGate_closed answer failed]
      exact asked.rearm label mode period false
    · rw [pollGate_closes answer failed]
      exact (halts _ _ (asked.announce label other .failure)).rearm label mode period _

end Rules

theorem stop_reached (tree : Tree H) (live : Live H tree) (cx : Context H) {frame : List Posture}
    (reached : Reached id past story (live.postures id ++ frame) cx) :
    Reached id past story ((stop tree live cx).live.postures id ++ frame)
      (stop tree live cx).cx :=
  reached.hush (stop_hushes id tree live cx)

theorem stopAll_reached (trees : Forest H) (lives : LiveForest H trees) (cx : Context H)
    {frame : List Posture} (reached : Reached id past story (lives.postures id ++ frame) cx) :
    Reached id past story ((stopAll trees lives cx).live.postures id ++ frame)
      (stopAll trees lives cx).cx :=
  reached.hush (stopAll_hushes id trees lives cx)

theorem startAction_reached {label : Label} {bound : H.Action} {status : Status} (unit : H.Action)
    {task : Option Nat} {cx : Context H} {frame : List Posture} (idle : ¬ status.isRunning)
    (reached : Reached id past story
      ((Live.action status unit task : Live H (.action label bound)).postures id ++ frame) cx) :
    let ran := startAction label unit task cx
    let live : Live H (.action label bound) := .action ran.status ran.unit ran.task
    Reached id past story (live.postures id ++ frame) ran.cx := by
  intro ran live
  by_cases own : label.id = id
  · subst own
    obtain ⟨held, deeds, posed, did, told⟩ := reached.follows
    rw [postures_own] at posed
    obtain ⟨posture, rfl⟩ := List.cons_eq_cons.mp posed
    obtain ⟨waits, rfl⟩ := Posture.mk.inj posture
    -- what does not run holds no task
    obtain rfl : task = none := by
      rw [Bool.not_eq_true, waits] at idle
      exact Option.isSome_eq_false_iff.mp idle |> Option.isNone_iff_eq_none.mp
    obtain ⟨more, after, stage, did', stands⟩ := startAction_stage label unit cx
    refine ⟨Nat.le_trans reached.recent startAction_nextId, after, deeds ++ more, ?_, ?_, ?_⟩
    · rw [postures_own, stands, List.append_nil]
    · rw [did', did, List.append_assoc]
    · exact story.goesOn told (stage.mono reached.recent)
  · rw [postures_other own] at reached ⊢
    exact reached.quiet (startAction_apart own) startAction_nextId

mutual

theorem evaluate_reached : (tree : Tree H) → (live : Live H tree) → (cx : Context H) →
    {frame : List Posture} → Reached id past story (live.postures id ++ frame) cx →
    Reached id past story ((evaluate tree live cx).live.postures id ++ frame)
      (evaluate tree live cx).cx
  | .relay role label child, .relay status kid, cx, frame, reached => by
    rw [evaluate]
    split
    · exact reached
    · have active := evaluate_reached child kid _ (reached.announce label role.kind_ne .running)
      exact active.announceAll label role.kind_ne _
  | .repeater label child, .repeater status deferred kid, cx, frame, reached => by
    rw [evaluate]
    split
    · exact reached
    · exact repeatChild_reached (Live.postures id) (fun kid cx => evaluate_reached child kid cx)
        label none kid _ ((reached.cancel deferred).announce label (by decide) .running)
  | .loop label period child, .loop status timer kid, cx, frame, reached => by
    rw [evaluate]
    split
    · exact reached
    · exact cycleChild_reached (Live.postures id) (fun kid cx => evaluate_reached child kid cx)
        label period kid _ (reached.cancel timer)
  | .gate label _ mode period child, .gate status unit timer last kid, cx, frame, reached => by
    rw [evaluate]
    split
    · exact reached
    · exact pollGate_reached (Live.postures id) (fun kid cx => evaluate_reached child kid cx)
        (fun kid cx => stop_reached child kid cx) label mode period .running unit .running kid
        _ ((reached.cancel timer).announce label (by decide) .running)
  | .ordered order label children, .ordered status kids, cx, frame, reached => by
    rw [evaluate]
    split
    · exact reached
    · exact runFrom_reached order label children kids _
        (reached.announce label order.kind_ne .running)
  | .weighted label bounds children, .weighted status selected kids, cx, frame, reached => by
    rw [evaluate]
    split
    · exact reached
    · have other : NodeKind.weightedRandomSelector ≠ .actionNode := nofun
      have told := reached.announce label other .running
      have drawn : Reached id past story (kids.postures id ++ frame)
          (cx.announce label .weightedRandomSelector .running).draw.2 :=
        told.quiet rfl (Nat.le_refl _)
      exact (evaluateAt_reached children _ kids _ drawn).announceAll label other _
  | .parallel label main background, .parallel status first second, cx, frame, reached => by
    rw [evaluate]
    split
    · exact reached
    · rw [postures_parallel, List.append_assoc] at reached
      have active := evaluate_reached main first (cx.announce label .simpleParallel .running)
        (reached.announce label (by decide) .running)
      have beside := accompany_reached (Live.postures id)
        (fun kid cx => evaluate_reached background kid cx)
        (fun kid cx => stop_reached background kid cx) label
        (evaluate main first (cx.announce label .simpleParallel .running)).report second _
        active.swap
      dsimp only
      split
      · rw [postures_parallel, List.append_assoc]
        exact (evaluate_reached background _ _ beside).swap
      · rw [postures_parallel, List.append_assoc]
        exact beside.swap
  | .condition label bound, .condition status unit, cx, frame, reached => by
    rw [evaluate]
    split
    · exact reached
    · exact reached.runCondition label unit
  | .action label bound, .action status unit task, cx, frame, reached => by
    rw [evaluate]
    split
    · exact reached
    · rename_i idle
      exact startAction_reached unit idle reached

theorem runFrom_reached (order : Order) (label : Label) : (trees : Forest H) →
    (lives : LiveForest H trees) → (cx : Context H) → {frame : List Posture} →
    Reached id past story (lives.postures id ++ frame) cx →
    Reached id past story ((runFrom order label trees lives cx).live.postures id ++ frame)
      (runFrom order label trees lives cx).cx
  | .nil, .nil, cx, frame, reached => reached.announce label order.kind_ne order.exhausted
  | .cons tree trees, .cons head tail, cx, frame, reached => by
    rw [postures_cons, List.append_assoc] at reached
    have active := evaluate_reached tree head cx reached
    have heard := react_reached (LiveForest.postures id)
      (fun later cx => stopAll_reached trees later cx) order label
      (evaluate tree head cx).report tail _ active.swap
    rw [runFrom]
    dsimp only
    split
    · rw [postures_cons, List.append_assoc]
      exact (runFrom_reached order label trees _ _ heard).swap
    · rw [postures_cons, List.append_assoc]
      exact heard.swap

theorem evaluateAt_reached : (trees : Forest H) → (index : Nat) → (lives : LiveForest H trees) →
    (cx : Context H) → {frame : List Posture} →
    Reached id past story (lives.postures id ++ frame) cx →
    Reached id past story ((evaluateAt trees index lives cx).live.postures id ++ frame)
      (evaluateAt trees index lives cx).cx
  | .nil, _, .nil, _, _, reached => reached
  | .cons tree trees, 0, .cons head tail, cx, frame, reached => by
    rw [postures_cons, List.append_assoc] at reached
    rw [evaluateAt, postures_cons, List.append_assoc]
    exact evaluate_reached tree head cx reached
  | .cons tree trees, index + 1, .cons head tail, cx, frame, reached => by
    rw [postures_cons, List.append_assoc] at reached
    rw [evaluateAt, postures_cons, List.append_assoc]
    exact (evaluateAt_reached trees index tail cx reached.swap).swap

end

end Moves

/-- The action with the id is the only one among the postures, and a call is about to begin. -/
structure Stands (id floor : Nat) (past : List Deed) (before : Option Nat)
    (postures : List Posture) (cx : Context H) : Prop where
  recent : floor ≤ cx.agenda.nextId
  posed : postures = [.holding before]
  did : cx.deeds id = past

section Wakes

variable {id floor : Nat} {past : List Deed} {before : Option Nat} {wake : Wake}
  {postures frame : List Posture} {cx : Context H}

theorem Stands.swap {front back : List Posture}
    (stands : Stands id floor past before (front ++ (back ++ frame)) cx) :
    Stands id floor past before (back ++ (front ++ frame)) cx := by
  have moved := List.perm_append_comm_assoc back front frame
  rw [stands.posed] at moved
  exact ⟨stands.recent, List.perm_singleton.mp moved, stands.did⟩

theorem Stands.reached {after : Option Nat} {deeds : List Deed} {cx' : Context H}
    (stands : Stands id floor past before postures cx)
    (grows : cx.agenda.nextId ≤ cx'.agenda.nextId)
    (did : cx'.deeds id = cx.deeds id ++ deeds) (woken : Woken id wake before deeds after) :
    Reached id past (.heard floor id wake before) [.holding after] cx' :=
  ⟨Nat.le_trans stands.recent grows, after, deeds, rfl, stands.did ▸ did, woken.heard floor⟩

theorem Stands.unheard (stands : Stands id floor past before postures cx)
    (none : wake.node = id → postures = []) :
    Reached id past (.heard floor id wake before) postures cx := by
  have apart : ¬ (wake.node = id ∧ before = some wake.task) := by
    rintro ⟨own, _⟩
    have posed := stands.posed
    rw [none own] at posed
    cases posed
  rw [stands.posed]
  exact stands.reached (Nat.le_refl _) (List.append_nil _).symm (.unheard apart)

theorem postures_uncovered {tree : Tree H} (live : Live H tree) {start : Nat}
    (counted : Consecutive start tree.labels) (uncovered : ¬ tree.covers id) :
    live.postures id = [] :=
  postures_outside live (mt (covers_iff_mem counted).mpr uncovered)

theorem beside {others : List Posture} (own : wake.node = id → frame = [])
    (none : wake.node = id → others = []) : wake.node = id → others ++ frame = [] := by
  intro same
  rw [none same, own same]
  rfl

theorem Stands.passes {tree : Tree H} (live : Live H tree) {start : Nat}
    (counted : Consecutive start tree.labels) (uncovered : ¬ tree.covers wake.node)
    (own : wake.node = id → frame = [])
    (stands : Stands id floor past before (live.postures id ++ frame) cx) :
    Reached id past (.heard floor id wake before) (live.postures id ++ frame) cx := by
  apply stands.unheard
  exact beside own fun same => postures_uncovered live counted (same ▸ uncovered)

theorem action_heard {label : Label} {bound : H.Action} {status : Status} {unit : H.Action}
    {task : Option Nat} (own : wake.node = id → frame = [])
    (stands : Stands id floor past before
      ((Live.action status unit task : Live H (.action label bound)).postures id ++ frame) cx) :
    let turn := resume wake (.action label bound) (.action status unit task) cx
    Reached id past (.heard floor id wake before) (turn.live.postures id ++ frame) turn.cx := by
  intro turn
  have resumed : turn = resume wake (.action label bound) (.action status unit task) cx := rfl
  rw [resume] at resumed
  by_cases here : label.id = id
  · subst here
    have posed := stands.posed
    rw [postures_own] at posed
    obtain ⟨posture, rfl⟩ := List.cons_eq_cons.mp posed
    obtain ⟨runs, rfl⟩ := Posture.mk.inj posture
    split at resumed
    · rename_i heeded
      obtain ⟨addressed, rfl⟩ := heeded
      rw [resumed, postures_own, List.append_nil]
      rcases stepAction_deeds label .update status unit (some wake.task) cx with
        ⟨same, kept, did⟩ | ⟨answer, shown, ended, quits, gone, did⟩
      · rw [same, kept, runs]
        exact stands.reached (Nat.le_of_eq stepAction_nextId.symm) did (.updates addressed)
      · rw [quits, gone]
        exact stands.reached (Nat.le_of_eq stepAction_nextId.symm) did (.ends addressed ended)
    · rename_i unheeded
      rw [resumed, postures_own, List.append_nil, runs]
      exact stands.reached (Nat.le_refl _) (List.append_nil _).symm (.unheard unheeded)
  · rw [postures_other here, List.nil_append] at stands
    have passed := stands.unheard own
    split at resumed
    · rw [resumed, postures_other here]
      exact passed.quiet (stepAction_apart here) (Nat.le_of_eq stepAction_nextId.symm)
    · rw [resumed, postures_other here]
      exact passed

/-- The action with the id hears the wake as it should when the wake resumes the tree, wherever it
stands. -/
def WakeHeard (id floor : Nat) (past : List Deed) (before : Option Nat) (wake : Wake)
    (tree : Tree H) (live : Live H tree) (cx : Context H) : Prop :=
  ∀ ⦃frame : List Posture⦄, (wake.node = id → frame = []) →
    Stands id floor past before (live.postures id ++ frame) cx →
    Reached id past (.heard floor id wake before)
      ((resume wake tree live cx).live.postures id ++ frame) (resume wake tree live cx).cx

section Nodes

variable {start : Nat} {label : Label} {status : Status} {timer : Option Nat} {child : Tree H}
  {kid : Live H child}

theorem relay_heard {role : Relay} (below : Consecutive start child.labels)
    (heard : WakeHeard id floor past before wake child kid cx) :
    WakeHeard id floor past before wake (.relay role label child) (.relay status kid) cx := by
  intro frame own stands
  rw [resume]
  split
  · have turned := heard own stands
    exact turned.announceAll label role.kind_ne _
  · rename_i uncovered
    exact stands.passes kid below uncovered own

theorem repeater_heard {deferred : Option Nat}
    (counted : Consecutive start (Tree.repeater label child).labels)
    (heard : WakeHeard id floor past before wake child kid cx) :
    WakeHeard id floor past before wake (.repeater label child) (.repeater status deferred kid)
      cx := by
  intro frame own stands
  have below := (consecutive_cons.mp counted).2
  rw [resume]
  split
  · rename_i here
    have passed := stands.passes kid below (not_covers_of_own counted here) own
    split
    · exact repeatChild_reached (Live.postures id) (fun kid cx => evaluate_reached child kid cx)
        label none kid _ (passed.cancel deferred)
    · exact passed
  · split
    · have turned := heard own stands
      dsimp only
      split
      · exact repeatChild_reached (Live.postures id)
          (fun kid cx => evaluate_reached child kid cx) label deferred _ _ turned
      · exact turned
    · rename_i uncovered
      exact stands.passes kid below uncovered own

theorem loop_heard {period : Nat}
    (counted : Consecutive start (Tree.loop label period child).labels)
    (heard : WakeHeard id floor past before wake child kid cx) :
    WakeHeard id floor past before wake (.loop label period child) (.loop status timer kid)
      cx := by
  intro frame own stands
  have below := (consecutive_cons.mp counted).2
  rw [resume]
  split
  · rename_i here
    have passed := stands.passes kid below (not_covers_of_own counted here) own
    split
    · exact cycleChild_reached (Live.postures id) (fun kid cx => evaluate_reached child kid cx)
        label period kid _ passed
    · exact passed
  · split
    · exact heard own stands
    · rename_i uncovered
      exact stands.passes kid below uncovered own

theorem gate_heard {bound unit : H.Condition} {mode : PollMode} {period : Nat} {last : Status}
    (counted : Consecutive start (Tree.gate label bound mode period child).labels)
    (heard : WakeHeard id floor past before wake child kid cx) :
    WakeHeard id floor past before wake (.gate label bound mode period child)
      (.gate status unit timer last kid) cx := by
  intro frame own stands
  have below := (consecutive_cons.mp counted).2
  rw [resume]
  split
  · rename_i here
    have passed := stands.passes kid below (not_covers_of_own counted here) own
    split
    · exact pollGate_reached (Live.postures id) (fun kid cx => evaluate_reached child kid cx)
        (fun kid cx => stop_reached child kid cx) label mode period status unit last kid cx passed
    · exact passed
  · split
    · have other : NodeKind.loopConditionNode ≠ .actionNode := nofun
      have turned := (heard own stands).announceAll label other
        ((resume wake child kid cx).report.filter Status.isReported)
      dsimp only
      split
      · exact turned.cancel timer
      · exact turned
    · rename_i uncovered
      exact stands.passes kid below uncovered own

theorem parallel_heard {main background : Tree H} {first : Live H main}
    {second : Live H background}
    (counted : Consecutive start (Tree.parallel label main background).labels)
    (led : WakeHeard id floor past before wake main first cx)
    (attended : WakeHeard id floor past before wake background second cx) :
    WakeHeard id floor past before wake (.parallel label main background)
      (.parallel status first second) cx := by
  intro frame own stands
  have below := (consecutive_cons.mp counted).2
  obtain ⟨left, right⟩ := consecutive_append.mp below
  rw [postures_parallel, List.append_assoc] at stands
  rw [resume]
  split
  · rename_i covered
    have alone := beside own fun same =>
      postures_outside second (same ▸ below.apart ((covers_iff_mem left).mp covered))
    have turned := led alone stands
    rw [postures_parallel, List.append_assoc]
    exact (accompany_reached (Live.postures id) (fun kid cx => evaluate_reached background kid cx)
      (fun kid cx => stop_reached background kid cx) label _ second _ turned.swap).swap
  · rename_i uncovered
    have alone := beside own fun same => postures_uncovered first left (same ▸ uncovered)
    split
    · have turned := attended alone stands.swap
      rw [postures_parallel, List.append_assoc]
      exact turned.swap
    · rename_i elsewhere
      rw [postures_parallel, List.append_assoc]
      exact (stands.swap.passes second right elsewhere alone).swap

end Nodes

mutual

theorem resume_heard (wake : Wake) : (tree : Tree H) → (start : Nat) →
    Consecutive start tree.labels → (live : Live H tree) → (cx : Context H) →
    WakeHeard id floor past before wake tree live cx
  | .relay _ _ child, _, counted, .relay _ kid, cx =>
    have below := (consecutive_cons.mp counted).2
    relay_heard below (resume_heard wake child _ below kid cx)
  | .repeater _ child, _, counted, .repeater _ _ kid, cx =>
    repeater_heard counted (resume_heard wake child _ (consecutive_cons.mp counted).2 kid cx)
  | .loop _ _ child, _, counted, .loop _ _ kid, cx =>
    loop_heard counted (resume_heard wake child _ (consecutive_cons.mp counted).2 kid cx)
  | .gate _ _ _ _ child, _, counted, .gate _ _ _ _ kid, cx =>
    gate_heard counted (resume_heard wake child _ (consecutive_cons.mp counted).2 kid cx)
  | .ordered order label children, _, counted, .ordered _ kids, cx => by
    intro frame own stands
    rw [resume]
    exact resumeFrom_heard wake order label children _ (consecutive_cons.mp counted).2 kids cx own
      stands
  | .weighted label _ children, _, counted, .weighted _ _ kids, cx => by
    intro frame own stands
    have turned := resumeRouted_heard wake children _ (consecutive_cons.mp counted).2 kids cx own
      stands
    rw [resume]
    dsimp only
    split
    · exact turned.announceAll label (by decide) _
    · exact turned
  | .parallel _ main background, _, counted, .parallel _ first second, cx =>
    have below := consecutive_append.mp (consecutive_cons.mp counted).2
    parallel_heard counted (resume_heard wake main _ below.1 first cx)
      (resume_heard wake background _ below.2 second cx)
  | .condition _ _, _, _, .condition _ _, cx => by
    intro frame own stands
    rw [resume]
    exact stands.unheard own
  | .action _ _, _, _, .action _ _ _, _ => fun _ own stands => action_heard own stands

theorem resumeFrom_heard (wake : Wake) (order : Order) (label : Label) : (trees : Forest H) →
    (start : Nat) → Consecutive start trees.labels → (lives : LiveForest H trees) →
    (cx : Context H) → {frame : List Posture} → (wake.node = id → frame = []) →
    Stands id floor past before (lives.postures id ++ frame) cx →
    Reached id past (.heard floor id wake before)
      ((resumeFrom wake order label trees lives cx).live.postures id ++ frame)
      (resumeFrom wake order label trees lives cx).cx
  | .nil, _, _, .nil, _, _, own, stands => stands.unheard own
  | .cons tree trees, start, counted, .cons head tail, cx, frame, own, stands => by
    obtain ⟨left, right⟩ := consecutive_append.mp counted
    rw [postures_cons, List.append_assoc] at stands
    rw [resumeFrom]
    split
    · rename_i covered
      have alone := beside own fun same =>
        postures_outside_all tail (same ▸ counted.apart ((covers_iff_mem left).mp covered))
      have turned := resume_heard wake tree _ left head cx alone stands
      have heard := react_reached (LiveForest.postures id)
        (fun later cx => stopAll_reached trees later cx) order label
        (resume wake tree head cx).report tail _ turned.swap
      dsimp only
      split
      · rw [postures_cons, List.append_assoc]
        exact (runFrom_reached order label trees _ _ heard).swap
      · rw [postures_cons, List.append_assoc]
        exact heard.swap
    · rename_i uncovered
      have alone := beside own fun same => postures_uncovered head left (same ▸ uncovered)
      rw [postures_cons, List.append_assoc]
      exact (resumeFrom_heard wake order label trees _ right tail cx alone stands.swap).swap

theorem resumeRouted_heard (wake : Wake) : (trees : Forest H) → (start : Nat) →
    Consecutive start trees.labels → (lives : LiveForest H trees) → (cx : Context H) →
    {frame : List Posture} → (wake.node = id → frame = []) →
    Stands id floor past before (lives.postures id ++ frame) cx →
    Reached id past (.heard floor id wake before)
      ((resumeRouted wake trees lives cx).live.postures id ++ frame)
      (resumeRouted wake trees lives cx).cx
  | .nil, _, _, .nil, _, _, own, stands => stands.unheard own
  | .cons tree trees, start, counted, .cons head tail, cx, frame, own, stands => by
    obtain ⟨left, right⟩ := consecutive_append.mp counted
    rw [postures_cons, List.append_assoc] at stands
    rw [resumeRouted]
    split
    · rename_i covered
      have alone := beside own fun same =>
        postures_outside_all tail (same ▸ counted.apart ((covers_iff_mem left).mp covered))
      rw [postures_cons, List.append_assoc]
      exact resume_heard wake tree _ left head cx alone stands
    · rename_i uncovered
      have alone := beside own fun same => postures_uncovered head left (same ▸ uncovered)
      rw [postures_cons, List.append_assoc]
      exact (resumeRouted_heard wake trees _ right tail cx alone stands.swap).swap

end

end Wakes

end ReactiveTree
