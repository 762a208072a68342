import ReactiveTree.Proofs.Candor

/-!
Every state that calls lead to is composed. A node that reacts to a child knows from the report
whether the child runs on; a child that settles and does not run holds no task, so that no wake is
for it; and a child that speaks cannot have started without being heard.
-/

namespace ReactiveTree

variable {H : Host}

section Reports

open Report

variable {prior after status : Status} {faulted : Prop} {report : Report}

theorem last_of_lasts (lasts : report.Lasts) (spoken : report ≠ []) :
    report.getLastD status = .running := by
  cases report with
  | nil => exact absurd rfl spoken
  | cons first rest => exact lasts

theorem lasts_of_append {first rest : Report} (unfinished : ∀ status ∈ first, status = .running)
    (lasts : rest.Lasts) : Lasts (first ++ rest) := by
  induction first with
  | nil => exact lasts
  | cons status first ih =>
    obtain ⟨rfl, later⟩ := List.forall_mem_cons.mp unfinished
    exact lasts_cons.mpr (ih later)

theorem Report.Agrees.upheld (agrees : report.Agrees prior faulted after)
    (upheld : prior = .running → status = .running) (running : after = .running) :
    report.getLastD status = .running := by
  by_cases spoken : report = []
  · rw [agrees.silent spoken] at running
    rw [spoken]
    exact upheld running
  · exact last_of_lasts (agrees.lasts running) spoken

theorem hand_lasts (role : Relay) (orderly : report.Orderly) (lasts : report.Lasts) :
    Lasts (role.hand report) := by
  induction orderly with
  | silent => rfl
  | verdict success => cases success <;> cases lasts
  | running _ ih =>
    have rest := ih (lasts_cons.mp lasts)
    cases role with
    | root | function => exact rest
    | inverse => exact lasts_cons.mpr rest

theorem accompany_ended {σ : Type} (halted : σ → Prop) {label : Label}
    {activate : σ → Context H → Turn H σ} {halt : σ → Context H → Stopped H σ}
    (halts : ∀ later cx, halted (halt later cx).live) (orderly : report.Orderly)
    (ended : ¬ report.Lasts) (background : σ) (cx : Context H) :
    halted (accompany label activate halt report background cx).live := by
  induction orderly generalizing background cx with
  | silent => exact absurd rfl ended
  | verdict success => cases success <;> exact halts _ _
  | running _ ih => exact ih (fun lasts => ended (lasts_cons.mpr lasts)) _ _

end Reports

section Proceeding

variable {tree : Tree H} {trees : Forest H}

/-- What an ordered node makes of the turn of one child, the later ones included. -/
def Order.proceed (order : Order) (label : Label) (turn : Turn H (Live H tree))
    (tail : LiveForest H trees) : Turn H (LiveForest H (.cons tree trees)) :=
  let heard := order.react label (stopAll trees) turn.report tail turn.cx
  if heard.advances then
    let rest := runFrom order label trees heard.later heard.cx
    ⟨.cons turn.live rest.live, rest.cx, heard.report ++ rest.report⟩
  else ⟨.cons turn.live heard.later, heard.cx, heard.report⟩

theorem runFrom_cons (order : Order) (label : Label) (head : Live H tree)
    (tail : LiveForest H trees) (cx : Context H) :
    runFrom order label (.cons tree trees) (.cons head tail) cx =
      order.proceed label (evaluate tree head cx) tail := by
  rw [runFrom]
  rfl

theorem resumeFrom_cons (wake : Wake) (order : Order) (label : Label) (head : Live H tree)
    (tail : LiveForest H trees) (cx : Context H) :
    resumeFrom wake order label (.cons tree trees) (.cons head tail) cx =
      if tree.covers wake.node then order.proceed label (resume wake tree head cx) tail
      else
        let rest := resumeFrom wake order label trees tail cx
        ⟨.cons head rest.live, rest.cx, rest.report⟩ := by
  rw [resumeFrom]
  rfl

variable {order : Order} {label : Label} {turn : Turn H (Live H tree)} {tail : LiveForest H trees}
  {prior : Status} {faulted : Prop}

theorem proceed_ended (agrees : turn.report.Agrees prior faulted turn.live.status)
    (goes : ∀ later cx, ¬ (runFrom order label trees later cx).report.Lasts →
      ∀ kid ∈ (runFrom order label trees later cx).live.members, kid.live.status ≠ .running)
    (ended : ¬ (order.proceed label turn tail).report.Lasts) :
    ∀ kid ∈ (order.proceed label turn tail).live.members, kid.live.status ≠ .running := by
  unfold Order.proceed at ended ⊢
  dsimp only at ended ⊢
  by_cases advances : (order.react label (stopAll trees) turn.report tail turn.cx).advances
  · rw [if_pos advances] at ended ⊢
    refine List.forall_mem_cons.mpr ⟨?_, ?_⟩
    · exact fun runs => react_stays agrees.orderly (agrees.lasts runs) advances
    · exact goes _ _ fun lasts =>
        ended (lasts_of_append ((react_orderly order label _ agrees.orderly _ _).2 advances) lasts)
  · rw [if_neg advances] at ended ⊢
    obtain ⟨verdict, stopped⟩ := react_ended
      (fun later : LiveForest H trees => ∀ kid ∈ later.members, kid.live.status ≠ .running)
      (fun later cx => (stopAll_idle trees later cx).status_ne) agrees.orderly advances ended
    exact List.forall_mem_cons.mpr ⟨mt agrees.lasts verdict, stopped⟩

theorem runFrom_ended (order : Order) (label : Label) (trees : Forest H)
    (lives : LiveForest H trees) (cx : Context H)
    (ended : ¬ (runFrom order label trees lives cx).report.Lasts) :
    ∀ kid ∈ (runFrom order label trees lives cx).live.members, kid.live.status ≠ .running := by
  induction trees generalizing cx with
  | nil =>
    cases lives
    exact List.forall_mem_nil _
  | cons tree trees ih =>
    cases lives with | cons head tail
    rw [runFrom_cons] at ended ⊢
    exact proceed_ended (evaluate_agrees tree head cx) ih ended

theorem resumeFrom_ended (wake : Wake) (order : Order) (label : Label) (trees : Forest H)
    (lives : LiveForest H trees) (cx : Context H)
    (alone : lives.members.Pairwise fun first later =>
      first.live.status = .running → later.live.handles = [])
    (ended : ¬ (resumeFrom wake order label trees lives cx).report.Lasts) :
    ∀ kid ∈ (resumeFrom wake order label trees lives cx).live.members,
      kid.live.status ≠ .running := by
  induction lives with
  | nil => exact List.forall_mem_nil _
  | @cons tree trees head tail ih =>
    obtain ⟨first, rest⟩ := List.pairwise_cons.mp alone
    rw [resumeFrom_cons] at ended ⊢
    split at ended
    · rename_i covered
      rw [if_pos covered]
      exact proceed_ended (resume_agrees wake tree head cx) (runFrom_ended order label trees) ended
    · rename_i uncovered
      rw [if_neg uncovered]
      refine List.forall_mem_cons.mpr ⟨?_, ih rest ended⟩
      -- the wake would have found nobody
      intro runs
      have unheld := unheld_iff_members.mpr fun kid member => first kid member runs
      rw [resumeFrom_unheld wake order label trees tail cx unheld] at ended
      exact ended rfl

variable {settled : Prop}

/-- While the child runs the later ones hold nothing: they did not before, or the node heard it. -/
theorem proceed_yields (agrees : turn.report.Agrees prior faulted turn.live.status)
    (reached : tail.Reachable) (yields : order.Yields settled tail.members)
    (rests : settled → tail.handles = [] ∨ turn.report = [] ∧ turn.live.status ≠ .running)
    (speaks : order = .selector → tree.Speaks → turn.live.status = .running →
      turn.report = [] → tail.handles = [])
    (goes : ∀ later cx, later.Reachable → order.Yields settled later.members →
      (settled → later.handles = []) →
      order.Yields settled (runFrom order label trees later cx).live.members) :
    order.Yields settled (order.proceed label turn tail).live.members := by
  -- whatever the later children are, they are as before or stopped
  have kept := react_reachable reached order label turn.report turn.cx
  have unheld := fun rests : tail.handles = [] => react_unheld order label turn.report turn.cx rests
  have later := react_keeps (fun later _ => order.Yields settled later.members)
    (fun later cx _ => yields_of_unheld (unheld_iff_members.mp (stopAll_handles trees later cx)))
    order label turn.report tail turn.cx yields
  unfold Order.proceed
  dsimp only
  by_cases advances : (order.react label (stopAll trees) turn.report tail turn.cx).advances
  · rw [if_pos advances]
    refine List.pairwise_cons.mpr ⟨?_, goes _ _ kept later fun settles => ?_⟩
    · exact fun _ _ _ runs => absurd advances (react_stays agrees.orderly (agrees.lasts runs))
    · rcases rests settles with resting | ⟨silent, _⟩
      · exact unheld resting
      · rw [silent] at advances
        exact absurd advances (react_stays .silent rfl)
  · rw [if_neg advances]
    refine List.pairwise_cons.mpr ⟨?_, later⟩
    intro kid member heard runs
    refine unheld_iff_members.mp ?_ kid member
    rcases heard with settles | ⟨rfl, spoken⟩
    · rcases rests settles with resting | ⟨_, still⟩
      · exact unheld resting
      · exact absurd runs still
    · by_cases silent : turn.report = []
      · exact unheld (speaks rfl spoken runs silent)
      · exact selector_halts (fun later : LiveForest H trees => later.handles = [])
          (stopAll_handles trees) agrees.orderly (agrees.lasts runs) silent

theorem runFrom_yields (order : Order) (label : Label) (trees : Forest H)
    (lives : LiveForest H trees) (cx : Context H) (reached : lives.Reachable)
    (yields : order.Yields settled lives.members) (rests : settled → lives.handles = []) :
    order.Yields settled (runFrom order label trees lives cx).live.members := by
  induction trees generalizing cx with
  | nil =>
    cases lives
    exact yields
  | cons tree trees ih =>
    cases lives with | cons head tail
    obtain ⟨here, beyond⟩ := reachable_cons.mp reached
    obtain ⟨first, later⟩ := List.pairwise_cons.mp yields
    rw [runFrom_cons]
    refine proceed_yields (evaluate_agrees tree head cx) beyond later ?_ ?_ ?_
    · exact fun settles => .inl (List.append_eq_nil_iff.mp (rests settles)).2
    · intro selector speaks runs silent
      by_cases ran : head.status = .running
      · exact unheld_iff_members.mpr fun kid member =>
          first kid member (.inr ⟨selector, speaks⟩) ran
      · exact absurd silent (speaks head cx here ran)
    · exact fun lives cx => ih lives cx

theorem resumeFrom_yields (wake : Wake) (order : Order) (label : Label) (trees : Forest H)
    (lives : LiveForest H trees) (cx : Context H) (reached : lives.Reachable)
    (settles : settled → trees.Settles) (yields : order.Yields settled lives.members) :
    order.Yields settled (resumeFrom wake order label trees lives cx).live.members := by
  induction lives with
  | nil => exact yields
  | @cons tree trees head tail ih =>
    obtain ⟨here, beyond⟩ := reachable_cons.mp reached
    obtain ⟨first, later⟩ := List.pairwise_cons.mp yields
    rw [resumeFrom_cons]
    split
    · refine proceed_yields (resume_agrees wake tree head cx) beyond later ?_ ?_ ?_
      · intro settled
        by_cases ran : head.status = .running
        · exact .inl (unheld_iff_members.mpr fun kid member => first kid member (.inl settled) ran)
        · -- a child that settled is not there to be woken
          have unheld := settles settled tree List.mem_cons_self head here ran
          rw [resume_unheld wake tree head cx unheld]
          exact .inr ⟨rfl, ran⟩
      · intro selector speaks runs silent
        have ran : head.status = .running :=
          ((resume_agrees wake tree head cx).silent silent).symm.trans runs
        exact unheld_iff_members.mpr fun kid member =>
          first kid member (.inr ⟨selector, speaks⟩) ran
      · exact fun lives cx => runFrom_yields order label trees lives cx
    · have others := fun settled => (List.forall_mem_cons.mp (settles settled)).2
      refine List.pairwise_cons.mpr ⟨?_, ih beyond others later⟩
      intro kid member heard runs
      have unheld := unheld_iff_members.mpr fun kid member => first kid member heard runs
      rw [resumeFrom_unheld wake order label trees tail cx unheld] at member
      exact unheld_iff_members.mp unheld kid member

theorem Order.Yields.alone {lives : LiveForest H trees}
    (yields : order.Yields trees.Settles lives.members)
    (heard : trees.Settles ∨ order = .selector ∧ trees.Speaks) :
    lives.members.Pairwise fun first later =>
      first.live.status = .running → later.live.handles = [] := by
  refine yields.imp_of_mem ?_
  intro first later member _ yields runs
  exact yields (heard.imp_right fun speaks => ⟨speaks.1, speaks.2 _ (member_tree member)⟩) runs

theorem resumeFrom_silent (wake : Wake) (label : Label) (trees : Forest H) (speaks : trees.Speaks)
    (lives : LiveForest H trees) (cx : Context H) (reached : lives.Reachable)
    (still : ∀ kid ∈ lives.members, kid.live.status ≠ .running)
    (silent : (resumeFrom wake .selector label trees lives cx).report = []) :
    ∀ kid ∈ (resumeFrom wake .selector label trees lives cx).live.members,
      kid.live.status ≠ .running := by
  induction lives with
  | nil => exact List.forall_mem_nil _
  | @cons tree trees head tail ih =>
    obtain ⟨_, others⟩ := List.forall_mem_cons.mp speaks
    obtain ⟨_, later⟩ := reachable_cons.mp reached
    obtain ⟨here, beyond⟩ := List.forall_mem_cons.mp still
    have agrees := resume_agrees wake tree head cx
    have resting := react_still .selector label (resume wake tree head cx).report
      (resume wake tree head cx).cx beyond
    rw [resumeFrom_cons] at silent ⊢
    split at silent
    · rename_i covered
      rw [if_pos covered]
      unfold Order.proceed at silent ⊢
      dsimp only at silent ⊢
      split at silent
      · exact absurd (List.append_eq_nil_iff.mp silent).2
          (runFrom_speaks label trees others _ _
            (react_reachable later .selector label _ _) resting)
      · rename_i stays
        rw [if_neg stays]
        refine List.forall_mem_cons.mpr ⟨?_, resting⟩
        by_cases spoken : (resume wake tree head cx).report = []
        · exact fun runs => here ((agrees.silent spoken).symm.trans runs)
        · rcases react_speaks agrees.orderly spoken with heard | goes
          · exact absurd silent heard
          · exact absurd goes.2 stays
    · rename_i uncovered
      rw [if_neg uncovered]
      exact List.forall_mem_cons.mpr ⟨here, ih others later beyond silent⟩

end Proceeding

section Gates

variable {label : Label} {mode : PollMode} {period : Nat}

theorem rearm_once {halts : Bool} {cx : Context H} (once : mode = .once) :
    (rearm label mode period halts cx).1 = none := by
  rw [rearm, if_pos (by simp [once])]

theorem rearm_some {halts : Bool} {cx : Context H}
    (armed : (rearm label mode period halts cx).1 ≠ none) : halts = false ∧ mode ≠ .once := by
  unfold rearm at armed
  split at armed
  · exact absurd rfl armed
  · rename_i neither
    simpa using neither

theorem last_ne_failure {report : Report} {last : Status} (open_ : mode.haltsOn report = false)
    (ends : mode = .trueToFalse) (unfailed : last ≠ .failure) :
    report.getLastD last ≠ .failure := by
  rw [PollMode.haltsOn, ends] at open_
  intro failed
  have within : report.getLastD last ∈ last :: report := List.getLastD_mem_cons
  rcases List.mem_cons.mp within with same | member
  · exact unfailed (same.symm.trans failed)
  · rw [failed] at member
    simp [member] at open_

variable {child : Tree H}

theorem pollGate_composed {status : Status} {unit : H.Condition} {last : Status}
    {kid : Live H child} {cx : Context H} (reached : kid.Reachable)
    (follows : kid.status = .running → status = .running)
    (ends : mode = .trueToFalse → last ≠ .failure)
    (closed : mode ≠ .both ∨ child.Speaks → last = .failure → kid.status ≠ .running) :
    let polled := pollGate label mode period (evaluate child) (stop child) status unit last kid cx
    mode.Composed child.Speaks polled.status polled.last polled.timer polled.kid.status := by
  have stopped (cx : Context H) : (stop child kid cx).live.status ≠ .running :=
    (stop_idle child kid cx).status_ne
  match answer : (cx.poll label unit).answer with
  | none =>
    rw [pollGate_faulted answer]
    exact {
      follows := fun runs => absurd runs (stopped _)
      once := fun _ => rfl
      ends := fun _ armed => absurd rfl armed
      closed := fun _ armed => absurd rfl armed }
  | some true =>
    by_cases succeeded : last = .success
    · rw [pollGate_content answer succeeded]
      exact {
        follows := follows
        once := rearm_once
        ends := fun mindful _ => ends mindful
        closed := fun heard _ => closed heard }
    · rw [pollGate_opens answer succeeded]
      dsimp only
      have agrees := evaluate_agrees child kid
        ((cx.poll label unit).cx.announce label .loopConditionNode .running)
      rw [agrees.orderly.reported]
      exact {
        follows := agrees.lasts
        once := rearm_once
        ends := by
          intro mindful armed
          obtain ⟨open_, _⟩ := rearm_some armed
          rw [Bool.or_eq_false_iff] at open_
          exact last_ne_failure open_.1 mindful (ends mindful)
        closed := by
          intro heard armed failed runs
          by_cases spoken : (evaluate child kid
            ((cx.poll label unit).cx.announce label .loopConditionNode .running)).report = []
          · -- the child runs in silence, so the gate did not open for it just now
            rw [spoken] at failed
            obtain ⟨open_, again⟩ := rearm_some armed
            cases mode with
            | once => exact again rfl
            | whenTrue => simp [PollMode.haltsHolding] at open_
            | trueToFalse => exact ends rfl failed
            | both =>
              have speaks : child.Speaks := heard.resolve_left (absurd rfl)
              exact absurd spoken (speaks kid _ reached (closed heard failed))
          · rw [last_of_lasts (agrees.lasts runs) spoken] at failed
            cases failed }
  | some false =>
    by_cases failed : last = .failure
    · rw [pollGate_closed answer failed]
      exact {
        follows := follows
        once := rearm_once
        ends := fun mindful _ => ends mindful
        closed := fun heard _ => closed heard }
    · rw [pollGate_closes answer failed]
      exact {
        follows := fun runs => absurd runs (stopped _)
        once := rearm_once
        ends := by
          intro mindful armed
          obtain ⟨open_, _⟩ := rearm_some armed
          exact absurd mindful (of_decide_eq_false open_)
        closed := fun _ _ _ => stopped _ }

theorem PollMode.Composed.hears {speaks : Prop} {status last prior after : Status}
    {timer timer' : Option Nat} {faulted : Prop} {report : Report}
    (composed : mode.Composed speaks status last timer prior)
    (agrees : report.Agrees prior faulted after)
    (armed : timer' ≠ none → timer' = timer ∧ mode.haltsOn report = false) :
    mode.Composed speaks (report.getLastD status) (report.getLastD last) timer' after where
  follows := agrees.upheld composed.follows
  once := by
    intro once
    by_contra held
    exact held ((armed held).1.trans (composed.once once))
  ends := by
    intro mindful held
    obtain ⟨same, open_⟩ := armed held
    exact last_ne_failure open_ mindful (composed.ends mindful (same ▸ held))
  closed := by
    intro heard held failed runs
    by_cases spoken : report = []
    · rw [spoken] at failed
      rw [agrees.silent spoken] at runs
      exact composed.closed heard ((armed held).1 ▸ held) failed runs
    · rw [last_of_lasts (agrees.lasts runs) spoken] at failed
      cases failed

end Gates

section Choices

theorem evaluateAt_picked (trees : Forest H) (index : Nat) (lives : LiveForest H trees)
    (cx : Context H) {kid : Part H}
    (found : (evaluateAt trees index lives cx).live.members[index]? = some kid)
    (runs : kid.live.status = .running) : (evaluateAt trees index lives cx).report.Lasts := by
  induction lives generalizing index with
  | nil => cases found
  | @cons tree _ head _ ih =>
    cases index with
    | zero =>
      cases found
      exact (evaluate_agrees tree head cx).lasts runs
    | succ index => exact ih index found

theorem evaluateAt_elsewhere (trees : Forest H) (index : Nat) (lives : LiveForest H trees)
    (cx : Context H) {other : Nat} (apart : other ≠ index) :
    (evaluateAt trees index lives cx).live.members[other]? = lives.members[other]? := by
  induction lives generalizing index other with
  | nil => rfl
  | cons _ _ ih =>
    cases index with
    | zero =>
      cases other with
      | zero => exact absurd rfl apart
      | succ other => rfl
    | succ index =>
      cases other with
      | zero => rfl
      | succ other => exact ih index (mt (congrArg (· + 1)) apart)

theorem resumeRouted_elsewhere (wake : Wake) (trees : Forest H) (lives : LiveForest H trees)
    (cx : Context H) {other : Nat} (apart : trees.route? wake.node ≠ some other) :
    (resumeRouted wake trees lives cx).live.members[other]? = lives.members[other]? := by
  induction lives generalizing other with
  | nil => rfl
  | cons _ _ ih =>
    rw [Forest.route?] at apart
    rw [resumeRouted]
    split
    · rename_i covered
      rw [if_pos covered] at apart
      cases other with
      | zero => exact absurd rfl apart
      | succ other => rfl
    · rename_i uncovered
      rw [if_neg uncovered] at apart
      cases other with
      | zero => rfl
      | succ other =>
        apply ih
        intro here
        exact apart (by rw [here]; rfl)

theorem resumeRouted_routed (wake : Wake) (trees : Forest H) (lives : LiveForest H trees)
    (cx : Context H) {index : Nat} {kid : Part H} (reached : lives.Reachable)
    (routed : trees.route? wake.node = some index)
    (found : (resumeRouted wake trees lives cx).live.members[index]? = some kid)
    (runs : kid.live.status = .running) :
    ∃ before, lives.members[index]? = some before ∧ before.tree = kid.tree ∧
      (kid.tree.Settles → before.live.status = .running) ∧
      ∀ {status : Status}, (before.live.status = .running → status = .running) →
        (resumeRouted wake trees lives cx).report.getLastD status = .running := by
  induction lives generalizing index with
  | nil => cases routed
  | @cons tree trees head tail ih =>
    obtain ⟨here, beyond⟩ := reachable_cons.mp reached
    rw [Forest.route?] at routed
    rw [resumeRouted] at found ⊢
    split at routed
    · rename_i covered
      rw [if_pos covered] at found ⊢
      cases routed
      cases found
      refine ⟨⟨tree, head⟩, rfl, rfl, ?_, fun before =>
        (resume_agrees wake tree head cx).upheld before runs⟩
      intro settles
      by_contra still
      rw [resume_unheld wake tree head cx (settles head here still)] at runs
      exact still runs
    · rename_i uncovered
      rw [if_neg uncovered] at found ⊢
      obtain ⟨index, there, rfl⟩ := Option.map_eq_some_iff.mp routed
      exact ih beyond there found

variable {status : Status} {selected : Option Nat} {trees : Forest H}
  {lives : LiveForest H trees}

/-- A new choice. A child chosen before runs on only if it does not settle, for no choice was made
while the node ran. -/
theorem evaluateAt_chosen (index : Nat) (cx : Context H)
    (chosen : Chosen status selected lives.members) (still : status ≠ .running) :
    Chosen ((evaluateAt trees index lives cx).report.getLastD .running) (some index)
      (evaluateAt trees index lives cx).live.members := by
  intro other kid found runs
  by_cases picked : other = index
  · subst picked
    exact ⟨fun _ => rfl, fun _ => evaluateAt_picked trees _ lives _ found runs⟩
  · rw [evaluateAt_elsewhere trees _ lives _ picked] at found
    obtain ⟨before, upheld⟩ := chosen other kid found runs
    exact ⟨fun settles => absurd (upheld (before settles)) still,
      fun same => absurd (Option.some.inj same).symm picked⟩

theorem resumeRouted_chosen (wake : Wake) (cx : Context H) (reached : lives.Reachable)
    (chosen : Chosen status selected lives.members) {after : Status}
    (heard : trees.route? wake.node = selected →
      after = (resumeRouted wake trees lives cx).report.getLastD status)
    (unheard : trees.route? wake.node ≠ selected → after = status) :
    Chosen after selected (resumeRouted wake trees lives cx).live.members := by
  intro index kid found runs
  by_cases here : trees.route? wake.node = some index
  · obtain ⟨before, there, same, ran, follows⟩ :=
      resumeRouted_routed wake trees lives cx reached here found runs
    refine ⟨fun settles => (chosen index before there (ran settles)).1 (same ▸ settles), ?_⟩
    intro picked
    rw [heard (here.trans picked.symm)]
    exact follows fun ran => (chosen index before there ran).2 picked
  · rw [resumeRouted_elsewhere wake trees lives cx here] at found
    obtain ⟨before, upheld⟩ := chosen index kid found runs
    refine ⟨before, fun picked => ?_⟩
    rw [unheard fun same => here (same.trans picked)]
    exact upheld picked

end Choices

section Phases

theorem stepAction_task {label : Label} {phase : Phase} {status : Status} {unit : H.Action}
    {task : Option Nat} {cx : Context H} (held : status ≠ .running → task = none) :
    (stepAction label phase status unit task cx).status ≠ .running →
      (stepAction label phase status unit task cx).task = none := by
  unfold stepAction
  dsimp only
  split
  · exact held
  · exact fun _ => rfl
  · exact fun _ => rfl

theorem startAction_task {label : Label} {unit : H.Action} {task : Option Nat} {cx : Context H} :
    (startAction label unit task cx).status ≠ .running →
      (startAction label unit task cx).task = none := by
  unfold startAction
  dsimp only
  split
  · split
    · exact fun still => absurd rfl still
    · exact stepAction_task fun _ => rfl
  · exact stepAction_task fun _ => rfl

end Phases

section Activating

theorem accompany_unheld {background : Tree H} {report : Report} {label : Label}
    {second : Live H background} {cx : Context H} (orderly : report.Orderly)
    (ended : ¬ report.Lasts) :
    (accompany label (evaluate background) (stop background) report second cx).live.handles = [] :=
  accompany_ended (fun kid => kid.handles = []) (stop_handles background) orderly ended second cx

theorem evaluate_composed {tree : Tree H} (live : Live H tree) (cx : Context H)
    (reached : live.Reachable) (composed : live.Composed) :
    (evaluate tree live cx).live.Composed := by
  have kids := reached.children
  cases live with
  | @relay role label child status kid =>
    rw [evaluate]
    split
    · exact composed
    · intro _ runs
      have agrees := evaluate_agrees child kid (cx.announce label role.kind .running)
      exact hand_lasts role agrees.orderly (agrees.lasts runs)
  | repeater status deferred kid | loop status timer kid =>
    rw [evaluate]
    split
    · exact composed
    · exact fun still => absurd rfl still
  | gate status unit timer last kid =>
    rw [evaluate]
    split
    · exact composed
    · exact pollGate_composed (kids _ List.mem_cons_self) (fun _ => rfl) (fun _ => nofun)
        (fun _ => nofun)
  | @ordered order label children status lives =>
    rw [evaluate]
    split
    · exact composed
    · rename_i idle
      exact {
        yields := runFrom_yields order label children lives _ kids composed.yields fun settles =>
          settled_unheld_all settles kids (composed.ends (.inl settles) (ne_running idle))
        ends := fun _ ended => runFrom_ended order label children lives _ ended }
  | @weighted label bounds children status selected lives =>
    rw [evaluate]
    split
    · exact composed
    · rename_i idle
      dsimp only [Live.Composed]
      rw [(evaluateAt_orderly children _ lives _).reported]
      exact evaluateAt_chosen _ _ composed (ne_running idle)
  | @parallel label main background status first second =>
    have agrees := evaluate_agrees main first (cx.announce label .simpleParallel .running)
    rw [evaluate]
    split
    · exact composed
    · dsimp only
      rw [accompany_report, agrees.orderly.reported]
      split
      · rename_i lasts
        have lasts := isRunning_iff.mp lasts
        exact ⟨fun _ => lasts, fun still => absurd (evaluate_running main first _ lasts) still⟩
      · rename_i ended
        exact ⟨agrees.lasts, fun _ => accompany_unheld agrees.orderly (ne_running ended)⟩
  | condition status unit =>
    rw [evaluate]
    split <;> trivial
  | action status unit task =>
    rw [evaluate]
    split
    · exact composed
    · exact startAction_task

end Activating

section Resuming

variable {label : Label}

/-- A relay hears of any end and, if it inverts, of any activity. A child that settles is not there
to be woken from rest. -/
theorem relay_resumed (wake : Wake) (role : Relay) {child : Tree H} {status : Status}
    {kid : Live H child} (cx : Context H) (reached : kid.Reachable)
    (heard : role = .inverse ∨ child.Settles) (upheld : kid.status = .running → status = .running)
    (runs : (resume wake child kid cx).live.status = .running) :
    (role.hand (resume wake child kid cx).report).getLastD status = .running := by
  have agrees := resume_agrees wake child kid cx
  by_cases ran : kid.status = .running
  · rw [upheld ran]
    exact hand_lasts role agrees.orderly (agrees.lasts runs)
  · have spoken : (resume wake child kid cx).report ≠ [] :=
      fun silent => ran ((agrees.silent silent).symm.trans runs)
    rcases heard with rfl | settles
    · exact last_of_lasts (hand_lasts .inverse agrees.orderly (agrees.lasts runs))
        (hand_inverse_ne_nil agrees.orderly spoken)
    · rw [resume_unheld wake child kid cx (settles kid reached ran)] at spoken
      exact absurd rfl spoken

/-- An ordered node that ends unheard had ended before, and then nobody was there to be woken. -/
theorem ordered_resumed (wake : Wake) (order : Order) {children : Forest H} {status : Status}
    {lives : LiveForest H children} (cx : Context H) (reached : lives.Reachable)
    (composed : order.Composed children status lives.members) :
    order.Composed children
      ((resumeFrom wake order label children lives cx).report.getLastD status)
      (resumeFrom wake order label children lives cx).live.members where
  yields := resumeFrom_yields wake order label children lives cx reached id composed.yields
  ends := by
    intro heard ended
    by_cases lasts : (resumeFrom wake order label children lives cx).report.Lasts
    · have silent : (resumeFrom wake order label children lives cx).report = [] := by
        by_contra spoken
        exact ended (last_of_lasts lasts spoken)
      rw [silent] at ended
      have still := composed.ends heard ended
      rcases heard with settles | ⟨rfl, speaks⟩
      · rw [resumeFrom_unheld wake order label children lives cx
          (settled_unheld_all settles reached still)]
        exact still
      · exact resumeFrom_silent wake label children speaks lives cx reached still silent
    · exact resumeFrom_ended wake order label children lives cx (composed.yields.alone heard) lasts

theorem parallel_resumed (wake : Wake) {main background : Tree H} {status : Status}
    {first : Live H main} {second : Live H background} (cx : Context H)
    (composed : (.parallel status first second :
      Live H (.parallel label main background)).Composed) :
    let turn := resume wake main first cx
    (.parallel (turn.report.getLastD status) turn.live (accompany label (evaluate background)
      (stop background) turn.report second turn.cx).live :
        Live H (.parallel label main background)).Composed := by
  intro turn
  have agrees := resume_agrees wake main first cx
  refine ⟨agrees.upheld composed.1, ?_⟩
  intro still
  by_cases lasts : turn.report.Lasts
  · have silent : turn.report = [] := by
      by_contra spoken
      exact still (resume_running wake main first cx lasts fun silent => absurd silent spoken)
    rw [silent]
    exact composed.2 fun ran => still ((agrees.silent silent).trans ran)
  · exact accompany_unheld agrees.orderly lasts

theorem gate_resumed (wake : Wake) {bound : H.Condition} {mode : PollMode} {period : Nat}
    {child : Tree H} {live : Live H (.gate label bound mode period child)} (cx : Context H)
    (reached : live.Reachable) (composed : live.Composed) :
    (resume wake (.gate label bound mode period child) live cx).live.Composed := by
  cases live with | gate status unit timer last kid
  have agrees := resume_agrees wake child kid cx
  have steady : mode.Composed child.Speaks status last timer kid.status := composed
  rw [resume]
  split
  · split
    · -- the timer that went off was held until now, so the state before binds the gate
      rename_i held
      have polls : timer ≠ none := by
        rw [held]
        exact Option.some_ne_none _
      exact pollGate_composed (reached.children _ List.mem_cons_self) steady.follows
        (fun mindful => steady.ends mindful polls) (fun heard => steady.closed heard polls)
    · exact composed
  · split
    · dsimp only
      rw [agrees.orderly.reported]
      split
      · exact steady.hears agrees fun armed => absurd rfl armed
      · rename_i open_
        exact steady.hears agrees fun _ => ⟨rfl, eq_false_of_ne_true open_⟩
    · exact composed

theorem resume_composed (wake : Wake) {tree : Tree H} (live : Live H tree) (cx : Context H)
    (reached : live.Reachable) (composed : live.Composed) :
    (resume wake tree live cx).live.Composed := by
  have kids := reached.children
  cases live with
  | relay status kid =>
    rw [resume]
    split
    · exact fun heard => relay_resumed wake _ cx (kids _ List.mem_cons_self) heard (composed heard)
    · exact composed
  | @repeater label child status deferred kid =>
    -- a repeater that does not run holds nothing, so that the wake is not for it
    by_cases running : status = .running
    · have upheld {task : Option Nat} {kid : Live H child} :
          (.repeater status task kid : Live H (.repeater label child)).Composed :=
        fun still => absurd running still
      rw [resume]
      split
      · split <;> exact upheld
      · split
        · dsimp only
          split <;> exact upheld
        · exact upheld
    · obtain ⟨own, below⟩ := composed running
      rwa [resume_unheld wake (.repeater label child) (.repeater status deferred kid) cx
        (List.append_eq_nil_iff.mpr ⟨holds_eq_nil.mpr own, below⟩)]
  | @loop label period child status timer kid =>
    by_cases running : status = .running
    · have upheld {task : Option Nat} {kid : Live H child} :
          (.loop status task kid : Live H (.loop label period child)).Composed :=
        fun still => absurd running still
      rw [resume]
      split
      · split
        · exact fun still => absurd rfl still
        · exact upheld
      · split <;> exact upheld
    · obtain ⟨own, below⟩ := composed running
      rwa [resume_unheld wake (.loop label period child) (.loop status timer kid) cx
        (List.append_eq_nil_iff.mpr ⟨holds_eq_nil.mpr own, below⟩)]
  | gate => exact gate_resumed wake cx reached composed
  | ordered status lives =>
    rw [resume]
    exact ordered_resumed wake _ cx kids composed
  | @weighted label bounds children status selected lives =>
    rw [resume]
    dsimp only
    split
    · rename_i routed
      rw [(resumeRouted_orderly wake children lives cx).reported]
      exact resumeRouted_chosen wake cx kids composed (fun _ => rfl) (absurd routed)
    · rename_i elsewhere
      exact resumeRouted_chosen wake cx kids composed (fun same => absurd same elsewhere)
        fun _ => rfl
  | @parallel label main background status first second =>
    rw [resume]
    split
    · dsimp only
      rw [accompany_report, (resume_agrees wake main first cx).orderly.reported]
      exact parallel_resumed wake cx composed
    · split
      · refine ⟨composed.1, fun still => ?_⟩
        have unheld := composed.2 still
        rwa [resume_unheld wake background second cx unheld]
      · exact composed
  | condition => trivial
  | action status unit task =>
    rw [resume]
    split
    · exact stepAction_task composed
    · exact composed

end Resuming

theorem Live.Reachable.composed {tree : Tree H} {live : Live H tree} (reached : live.Reachable) :
    live.Composed := by
  induction reached with
  | fresh => exact composed_of_unheld _ (initial_idle tree) (initial_handles tree)
  | activated cx reached ih => exact evaluate_composed _ cx reached ih
  | woken wake cx reached ih => exact resume_composed wake _ cx reached ih
  | stopped cx _ _ =>
    exact composed_of_unheld _ (stop_idle tree _ cx) (stop_handles tree _ cx)

end ReactiveTree
