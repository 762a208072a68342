import ReactiveTree.Proofs.Reporting

/-!
What keeps a running node running. The node holds a task, or a child of it runs: the only one, the
main one, the chosen one, or any of those that are run in order. Every call keeps that, for a node
that hears no verdict of the child goes on running with it.
-/

namespace ReactiveTree

variable {H : Host}

def LiveForest.status? : {trees : Forest H} → LiveForest H trees → Nat → Option Status
  | _, .nil, _ => none
  | _, .cons head _, 0 => some head.status
  | _, .cons _ tail, index + 1 => tail.status? index

def LiveForest.Runs {trees : Forest H} (lives : LiveForest H trees) : Prop :=
  ∃ index, lives.status? index = some .running

mutual

/-- Each running node holds a task or has a running child that keeps it running. -/
def Live.Attended : {tree : Tree H} → Live H tree → Prop
  | _, .relay status kid => (status = .running → kid.status = .running) ∧ kid.Attended
  | _, .repeater status deferred kid =>
    (status = .running → deferred ≠ none ∨ kid.status = .running) ∧ kid.Attended
  | _, .loop status timer kid => (status = .running → timer ≠ none) ∧ kid.Attended
  | _, .gate status _ _ _ kid => (status = .running → kid.status = .running) ∧ kid.Attended
  | _, .ordered status kids => (status = .running → kids.Runs) ∧ kids.Attended
  | _, .weighted status selected kids =>
    (status = .running → ∃ index, selected = some index ∧ kids.status? index = some .running) ∧
      kids.Attended
  | _, .parallel status first second =>
    (status = .running → first.status = .running) ∧ first.Attended ∧ second.Attended
  | _, .condition status _ => status ≠ .running
  | _, .action status _ task => status = .running → task ≠ none

def LiveForest.Attended : {trees : Forest H} → LiveForest H trees → Prop
  | _, .nil => True
  | _, .cons head tail => head.Attended ∧ tail.Attended

end

mutual

/-- Each weighted choice has a bound for every child, and has children. -/
def Tree.Weighed : Tree H → Prop
  | .relay _ _ child | .repeater _ child | .loop _ _ child | .gate _ _ _ _ child => child.Weighed
  | .ordered _ _ children => children.Weighed
  | .weighted _ bounds children =>
    bounds.length = children.length ∧ 0 < bounds.length ∧ children.Weighed
  | .parallel _ main background => main.Weighed ∧ background.Weighed
  | .condition _ _ | .action _ _ => True

def Forest.Weighed : Forest H → Prop
  | .nil => True
  | .cons tree trees => tree.Weighed ∧ trees.Weighed

end

mutual

theorem initial_attended : (tree : Tree H) → (Live.initial tree).Attended
  | .relay _ _ child | .repeater _ child | .loop _ _ child | .gate _ _ _ _ child =>
    ⟨nofun, initial_attended child⟩
  | .ordered _ _ children | .weighted _ _ children => ⟨nofun, initial_attended_all children⟩
  | .parallel _ main background => ⟨nofun, initial_attended main, initial_attended background⟩
  | .condition _ _ => nofun
  | .action _ _ => nofun

theorem initial_attended_all : (trees : Forest H) → (LiveForest.initial trees).Attended
  | .nil => trivial
  | .cons tree trees => ⟨initial_attended tree, initial_attended_all trees⟩

end

mutual

theorem stop_attended : (tree : Tree H) → (live : Live H tree) → (cx : Context H) →
    (stop tree live cx).live.Attended
  | .relay _ _ child, .relay _ kid, _ => ⟨nofun, stop_attended child kid _⟩
  | .repeater _ child, .repeater _ _ kid, _ => ⟨nofun, stop_attended child kid _⟩
  | .loop _ _ child, .loop _ _ kid, _ => ⟨nofun, stop_attended child kid _⟩
  | .gate _ _ _ _ child, .gate _ _ _ _ kid, _ => ⟨nofun, stop_attended child kid _⟩
  | .ordered _ _ children, .ordered _ kids, _ => ⟨nofun, stopAll_attended children kids _⟩
  | .weighted _ _ children, .weighted _ _ kids, _ => ⟨nofun, stopAll_attended children kids _⟩
  | .parallel _ main background, .parallel _ first second, _ =>
    ⟨nofun, stop_attended main first _, stop_attended background second _⟩
  | .condition _ _, .condition _ _, _ => nofun
  | .action _ _, .action _ _ _, _ => nofun

theorem stopAll_attended : (trees : Forest H) → (lives : LiveForest H trees) →
    (cx : Context H) → (stopAll trees lives cx).live.Attended
  | .nil, .nil, _ => trivial
  | .cons tree trees, .cons head tail, _ =>
    ⟨stop_attended tree head _, stopAll_attended trees tail _⟩

end

section Rules

variable {σ : Type} (runs : σ → Prop) {activate : σ → Context H → Turn H σ}
  {halt : σ → Context H → Stopped H σ}

theorem runCondition_running (label : Label) (unit : H.Condition) (cx : Context H) :
    (runCondition label unit cx).answer.1 ≠ .running := by
  unfold runCondition
  dsimp only
  split
  · rename_i verdict _
    cases verdict <;> nofun
  · nofun

theorem stepAction_running {label : Label} {phase : Phase} {status : Status} {unit : H.Action}
    {task : Option Nat} {cx : Context H}
    (running : (stepAction label phase status unit task cx).status = .running) :
    status = .running ∧ (stepAction label phase status unit task cx).task = task := by
  unfold stepAction at running ⊢
  dsimp only at running ⊢
  split at running
  · exact ⟨running, rfl⟩
  · rename_i success _
    cases success <;> cases running
  · cases running

theorem startAction_running {label : Label} {unit : H.Action} {task : Option Nat} {cx : Context H}
    (running : (startAction label unit task cx).status = .running) :
    (startAction label unit task cx).task ≠ none := by
  unfold startAction at running ⊢
  dsimp only at running ⊢
  split
  · rename_i started
    split
    · exact Option.some_ne_none _
    · rename_i updated
      rw [if_pos started, if_neg updated] at running
      exact absurd (decide_eq_true running) updated
  · rename_i started
    rw [if_neg started] at running
    exact absurd (decide_eq_true running) started

theorem repeatChild_running (label : Label) (deferred : Option Nat) (kid : σ) (cx : Context H)
    (orderly : (activate kid cx).report.Orderly)
    (lasts : (activate kid cx).report.Lasts → runs (activate kid cx).live) :
    (repeatChild label activate deferred kid cx).deferred ≠ none ∨
      runs (repeatChild label activate deferred kid cx).kid := by
  unfold repeatChild
  dsimp only
  split
  · exact .inl (Option.some_ne_none _)
  · rename_i unended
    exact .inr (lasts (orderly.lasts_of_terminal unended))

theorem pollGate_running {label : Label} {mode : PollMode} {period : Nat} {status : Status}
    {unit : H.Condition} {last : Status} {kid : σ} {cx : Context H}
    (orderly : ∀ kid cx, (activate kid cx).report.Orderly)
    (lasts : ∀ kid cx, (activate kid cx).report.Lasts → runs (activate kid cx).live)
    (kept : last ≠ .running → status = .running → runs kid)
    (running : (pollGate label mode period activate halt status unit last kid cx).status =
      .running) : runs (pollGate label mode period activate halt status unit last kid cx).kid := by
  match answer : (cx.poll label unit).answer with
  | none =>
    rw [pollGate_faulted answer] at running
    cases running
  | some true =>
    by_cases succeeded : last = .success
    · rw [pollGate_content answer succeeded] at running ⊢
      exact kept (by rw [succeeded]; nofun) running
    · rw [pollGate_opens answer succeeded] at running ⊢
      dsimp only at running
      rw [(orderly _ _).reported] at running
      exact lasts _ _ running
  | some false =>
    by_cases failed : last = .failure
    · rw [pollGate_closed answer failed] at running ⊢
      exact kept (by rw [failed]; nofun) running
    · rw [pollGate_closes answer failed] at running
      cases running

end Rules

theorem evaluate_running (tree : Tree H) (live : Live H tree) (cx : Context H)
    (lasts : (evaluate tree live cx).report.Lasts) :
    (evaluate tree live cx).live.status = .running :=
  (evaluate_agrees tree live cx).running lasts fun _ => rfl

theorem resume_running (wake : Wake) (tree : Tree H) (live : Live H tree) (cx : Context H)
    (lasts : (resume wake tree live cx).report.Lasts)
    (silent : (resume wake tree live cx).report = [] → live.status = .running) :
    (resume wake tree live cx).live.status = .running :=
  (resume_agrees wake tree live cx).running lasts silent

theorem resume_upheld (wake : Wake) (tree : Tree H) (live : Live H tree) (cx : Context H)
    {status : Status} (upheld : status = .running → live.status = .running)
    (last : (resume wake tree live cx).report.getLastD status = .running) :
    (resume wake tree live cx).live.status = .running := by
  apply resume_running wake tree live cx (Report.lasts_of_last last)
  intro silent
  rw [silent] at last
  exact upheld last

theorem runFrom_runs (order : Order) (label : Label) : (trees : Forest H) →
    (lives : LiveForest H trees) → (cx : Context H) →
    (runFrom order label trees lives cx).report.Lasts →
    (runFrom order label trees lives cx).live.Runs
  | .nil, .nil, _, lasts => by cases order <;> cases lasts
  | .cons tree trees, .cons head tail, cx, lasts => by
    rw [runFrom] at lasts ⊢
    dsimp only at lasts ⊢
    split at lasts
    · rename_i advances
      rw [if_pos advances]
      obtain ⟨index, running⟩ := runFrom_runs order label trees _ _ (Report.lasts_append lasts)
      exact ⟨index + 1, running⟩
    · rename_i stays
      rw [if_neg stays]
      have unended := react_lasts (evaluate_agrees tree head cx).orderly stays lasts
      exact ⟨0, congrArg some (evaluate_running tree head cx unended)⟩

theorem evaluateAt_running : (trees : Forest H) → (index : Nat) → (lives : LiveForest H trees) →
    (cx : Context H) → index < trees.length → (evaluateAt trees index lives cx).report.Lasts →
    (evaluateAt trees index lives cx).live.status? index = some .running
  | .cons tree _, 0, .cons head _, cx, _, lasts => congrArg some (evaluate_running tree head cx lasts)
  | .cons _ trees, index + 1, .cons _ tail, cx, inside, lasts =>
    evaluateAt_running trees index tail cx (Nat.lt_of_succ_lt_succ inside) lasts

mutual

theorem evaluate_attended : (tree : Tree H) → tree.Weighed → (live : Live H tree) →
    (cx : Context H) → live.Attended → (evaluate tree live cx).live.Attended
  | .relay role label child, weighed, .relay status kid, cx, attended => by
    rw [evaluate]
    split
    · exact attended
    · refine ⟨?_, evaluate_attended child weighed kid _ attended.2⟩
      intro last
      exact evaluate_running child kid _ ((evaluate_agrees child kid _).orderly.lasts_of_hand last)
  | .repeater label child, weighed, .repeater status deferred kid, cx, attended => by
    rw [evaluate]
    split
    · exact attended
    · constructor
      · intro _
        exact repeatChild_running (fun kid => kid.status = .running) label none kid _
          (evaluate_agrees child kid _).orderly (evaluate_running child kid _)
      · exact repeatChild_kid Live.Attended (fun kid cx => evaluate_attended child weighed kid cx)
          label none kid _ attended.2
  | .loop label period child, weighed, .loop status timer kid, cx, attended => by
    rw [evaluate]
    split
    · exact attended
    · exact ⟨fun _ => Option.some_ne_none _, evaluate_attended child weighed kid _ attended.2⟩
  | .gate label bound mode period child, weighed, .gate status unit timer last kid, cx,
      attended => by
    rw [evaluate]
    split
    · exact attended
    · constructor
      · exact pollGate_running (fun kid => kid.status = .running)
          (fun kid cx => (evaluate_agrees child kid cx).orderly) (evaluate_running child)
          (fun unheard => absurd rfl unheard)
      · exact pollGate_kid Live.Attended (fun kid cx => evaluate_attended child weighed kid cx)
          (fun kid cx _ => stop_attended child kid cx) label mode period .running unit .running kid
          _ attended.2
  | .ordered order label children, weighed, .ordered status kids, cx, attended => by
    rw [evaluate]
    split
    · exact attended
    · exact ⟨runFrom_runs order label children kids _,
        runFrom_attended order label children weighed kids _ attended.2⟩
  | .weighted label bounds children, weighed, .weighted status selected kids, cx, attended => by
    obtain ⟨fits, filled, below⟩ := weighed
    rw [evaluate]
    split
    · exact attended
    · dsimp only
      rw [(evaluateAt_orderly children _ kids _).reported]
      refine ⟨?_, evaluateAt_attended children below _ kids _ attended.2⟩
      intro lasts
      -- a draw past the end would leave the node running over no child at all
      have inside := fits ▸ Weights.pick_lt filled
        (cx.announce label .weightedRandomSelector .running).draw.1
      exact ⟨_, rfl, evaluateAt_running children _ kids _ inside lasts⟩
  | .parallel label main background, weighed, .parallel status first second, cx, attended => by
    rw [evaluate]
    split
    · exact attended
    · have heard := (evaluate_agrees main first (cx.announce label .simpleParallel .running)).orderly
      have beside := accompany_keeps (fun kid _ => kid.Attended)
        (fun kid cx => evaluate_attended background weighed.2 kid cx)
        (fun kid cx _ => stop_attended background kid cx) label
        (evaluate main first (cx.announce label .simpleParallel .running)).report second
        (evaluate main first (cx.announce label .simpleParallel .running)).cx attended.2.2
      dsimp only
      rw [accompany_report, heard.reported]
      split
      · exact ⟨evaluate_running main first _, evaluate_attended main weighed.1 first _ attended.2.1,
          evaluate_attended background weighed.2 _ _ beside⟩
      · exact ⟨evaluate_running main first _, evaluate_attended main weighed.1 first _ attended.2.1,
          beside⟩
  | .condition label bound, _, .condition status unit, cx, attended => by
    rw [evaluate]
    split
    · exact attended
    · exact runCondition_running label unit cx
  | .action label bound, _, .action status unit task, cx, attended => by
    rw [evaluate]
    split
    · exact attended
    · exact startAction_running

theorem runFrom_attended (order : Order) (label : Label) : (trees : Forest H) → trees.Weighed →
    (lives : LiveForest H trees) → (cx : Context H) → lives.Attended →
    (runFrom order label trees lives cx).live.Attended
  | .nil, _, .nil, _, _ => trivial
  | .cons tree trees, weighed, .cons head tail, cx, attended => by
    have heard := react_keeps (fun later _ => later.Attended)
      (fun later cx _ => stopAll_attended trees later cx) order label
      (evaluate tree head cx).report tail (evaluate tree head cx).cx attended.2
    have active := evaluate_attended tree weighed.1 head cx attended.1
    rw [runFrom]
    dsimp only
    split
    · exact ⟨active, runFrom_attended order label trees weighed.2 _ _ heard⟩
    · exact ⟨active, heard⟩

theorem evaluateAt_attended : (trees : Forest H) → trees.Weighed → (index : Nat) →
    (lives : LiveForest H trees) → (cx : Context H) → lives.Attended →
    (evaluateAt trees index lives cx).live.Attended
  | .nil, _, _, .nil, _, _ => trivial
  | .cons tree _, weighed, 0, .cons head _, cx, attended =>
    ⟨evaluate_attended tree weighed.1 head cx attended.1, attended.2⟩
  | .cons _ trees, weighed, index + 1, .cons _ tail, cx, attended =>
    ⟨attended.1, evaluateAt_attended trees weighed.2 index tail cx attended.2⟩

end

theorem resumeFrom_runs (wake : Wake) (order : Order) (label : Label) : (trees : Forest H) →
    (lives : LiveForest H trees) → (cx : Context H) → {status : Status} →
    (status = .running → lives.Runs) →
    (resumeFrom wake order label trees lives cx).report.getLastD status = .running →
    (resumeFrom wake order label trees lives cx).live.Runs
  | .nil, .nil, _, _, upheld, running => upheld running
  | .cons tree trees, .cons head tail, cx, status, upheld, running => by
    rw [resumeFrom] at running ⊢
    by_cases covered : tree.covers wake.node
    · rw [if_pos covered] at running ⊢
      dsimp only at running ⊢
      split at running
      · rename_i advances
        rw [if_pos advances]
        obtain ⟨index, runs⟩ := runFrom_runs order label trees _ _ (Report.lasts_append running)
        exact ⟨index + 1, runs⟩
      · rename_i stays
        rw [if_neg stays]
        have unended := react_lasts (resume_agrees wake tree head cx).orderly stays running
        by_cases silent : (resume wake tree head cx).report = []
        · -- nothing was heard, so whichever child ran before runs still
          rw [silent] at running ⊢
          obtain ⟨index, runs⟩ := upheld running
          cases index with
          | zero =>
            have still := resume_running wake tree head cx unended fun _ => Option.some.inj runs
            exact ⟨0, congrArg some still⟩
          | succ index => exact ⟨index + 1, runs⟩
        · have still := resume_running wake tree head cx unended fun unheard =>
            absurd unheard silent
          exact ⟨0, congrArg some still⟩
    · -- the wake lies further on; a child that ran and is passed over runs still
      rw [if_neg covered] at running ⊢
      by_cases ran : head.status = .running
      · exact ⟨0, congrArg some ran⟩
      · have later : status = .running → tail.Runs := by
          intro same
          obtain ⟨index, runs⟩ := upheld same
          cases index with
          | zero => exact absurd (Option.some.inj runs) ran
          | succ index => exact ⟨index, runs⟩
        obtain ⟨index, runs⟩ := resumeFrom_runs wake order label trees tail cx later running
        exact ⟨index + 1, runs⟩

theorem resumeRouted_status (wake : Wake) : (trees : Forest H) → (lives : LiveForest H trees) →
    (cx : Context H) → (index : Nat) → trees.route? wake.node ≠ some index →
    (resumeRouted wake trees lives cx).live.status? index = lives.status? index
  | .nil, .nil, _, _, _ => rfl
  | .cons tree trees, .cons head tail, cx, index, elsewhere => by
    rw [Forest.route?] at elsewhere
    rw [resumeRouted]
    split
    · rename_i covered
      rw [if_pos covered] at elsewhere
      cases index with
      | zero => exact absurd rfl elsewhere
      | succ index => rfl
    · rename_i uncovered
      rw [if_neg uncovered] at elsewhere
      cases index with
      | zero => rfl
      | succ index =>
        apply resumeRouted_status wake trees tail cx index
        intro here
        exact elsewhere (by rw [here]; rfl)

theorem resumeRouted_running (wake : Wake) : (trees : Forest H) → (lives : LiveForest H trees) →
    (cx : Context H) → {status : Status} →
    (status = .running → ∃ index, trees.route? wake.node = some index ∧
      lives.status? index = some .running) →
    (resumeRouted wake trees lives cx).report.getLastD status = .running →
    ∃ index, trees.route? wake.node = some index ∧
      (resumeRouted wake trees lives cx).live.status? index = some .running
  | .nil, .nil, _, _, upheld, running => upheld running
  | .cons tree trees, .cons head tail, cx, status, upheld, running => by
    rw [Forest.route?] at upheld ⊢
    rw [resumeRouted] at running ⊢
    by_cases covered : tree.covers wake.node
    · rw [if_pos covered] at running upheld ⊢
      rw [if_pos covered]
      have first : status = .running → head.status = .running := by
        intro same
        obtain ⟨_, here, runs⟩ := upheld same
        cases here
        exact Option.some.inj runs
      exact ⟨0, rfl, congrArg some (resume_upheld wake tree head cx first running)⟩
    · rw [if_neg covered] at running upheld ⊢
      rw [if_neg covered]
      have later : status = .running → ∃ index, trees.route? wake.node = some index ∧
          tail.status? index = some .running := by
        intro same
        obtain ⟨_, here, runs⟩ := upheld same
        obtain ⟨index, there, rfl⟩ := Option.map_eq_some_iff.mp here
        exact ⟨index, there, runs⟩
      obtain ⟨index, here, runs⟩ := resumeRouted_running wake trees tail cx later running
      exact ⟨index + 1, by rw [here]; rfl, runs⟩

section Nodes

variable {wake : Wake} {label : Label} {status : Status} {child : Tree H} {kid : Live H child}
  {cx : Context H}

theorem relay_attended {role : Relay}
    (attended : (Live.relay status kid : Live H (.relay role label child)).Attended)
    (woken : (resume wake child kid cx).live.Attended) :
    (resume wake (.relay role label child) (.relay status kid) cx).live.Attended := by
  rw [resume]
  split
  · refine ⟨?_, woken⟩
    intro last
    apply resume_running wake child kid cx
      ((resume_agrees wake child kid cx).orderly.lasts_of_hand last)
    intro silent
    rw [silent] at last
    cases role <;> exact attended.1 last
  · exact attended

theorem repeatChild_attended (weighed : child.Weighed) (status : Status) (deferred : Option Nat)
    (kid : Live H child) (cx : Context H) (attended : kid.Attended) :
    let turn := repeatChild label (evaluate child) deferred kid cx
    (status = .running → turn.deferred ≠ none ∨ turn.kid.status = .running) ∧
      turn.kid.Attended := by
  constructor
  · intro _
    exact repeatChild_running (fun kid => kid.status = .running) label deferred kid cx
      (evaluate_agrees child kid cx).orderly (evaluate_running child kid cx)
  · exact repeatChild_kid Live.Attended (fun kid cx => evaluate_attended child weighed kid cx)
      label deferred kid cx attended

theorem repeater_attended {deferred : Option Nat} (weighed : child.Weighed)
    (attended : (Live.repeater status deferred kid : Live H (.repeater label child)).Attended)
    (woken : (resume wake child kid cx).live.Attended) :
    (resume wake (.repeater label child) (.repeater status deferred kid) cx).live.Attended := by
  rw [resume]
  split
  · split
    · exact repeatChild_attended weighed status none kid _ attended.2
    · exact attended
  · split
    · dsimp only
      split
      · exact repeatChild_attended weighed status deferred _ _ woken
      · rename_i unended
        refine ⟨?_, woken⟩
        intro running
        rcases attended.1 running with holding | ran
        · exact .inl holding
        · exact .inr (resume_running wake child kid cx
            ((resume_agrees wake child kid cx).orderly.lasts_of_terminal unended) fun _ => ran)
    · exact attended

theorem gate_attended {bound unit : H.Condition} {mode : PollMode} {period : Nat}
    {timer : Option Nat} {last : Status} (weighed : child.Weighed)
    (attended : (Live.gate status unit timer last kid :
      Live H (.gate label bound mode period child)).Attended)
    (woken : (resume wake child kid cx).live.Attended) :
    (resume wake (.gate label bound mode period child) (.gate status unit timer last kid)
      cx).live.Attended := by
  rw [resume]
  split
  · split
    · constructor
      · exact pollGate_running (fun kid => kid.status = .running)
          (fun kid cx => (evaluate_agrees child kid cx).orderly) (evaluate_running child)
          (fun _ => attended.1)
      · exact pollGate_kid Live.Attended (fun kid cx => evaluate_attended child weighed kid cx)
          (fun kid cx _ => stop_attended child kid cx) label mode period status unit last kid
          cx attended.2
    · exact attended
  · split
    · dsimp only
      rw [(resume_agrees wake child kid cx).orderly.reported]
      split <;> exact ⟨resume_upheld wake child kid cx attended.1, woken⟩
    · exact attended

theorem weighted_attended {bounds : List Single} {children : Forest H} {selected : Option Nat}
    {kids : LiveForest H children}
    (attended : (Live.weighted status selected kids :
      Live H (.weighted label bounds children)).Attended)
    (woken : (resumeRouted wake children kids cx).live.Attended) :
    (resume wake (.weighted label bounds children) (.weighted status selected kids)
      cx).live.Attended := by
  rw [resume]
  dsimp only
  split
  · rename_i routed
    rw [(resumeRouted_orderly wake children kids cx).reported]
    refine ⟨?_, woken⟩
    intro running
    have upheld := attended.1
    rw [← routed] at upheld ⊢
    exact resumeRouted_running wake children kids cx upheld running
  · -- the chosen child is not the one that was woken, so it is as it was
    rename_i elsewhere
    refine ⟨?_, woken⟩
    intro running
    obtain ⟨index, chosen, runs⟩ := attended.1 running
    rw [chosen] at elsewhere
    exact ⟨index, chosen, (resumeRouted_status wake children kids cx index elsewhere).trans runs⟩

theorem parallel_attended {main background : Tree H} {first : Live H main}
    {second : Live H background} (weighed : background.Weighed)
    (attended : (Live.parallel status first second :
      Live H (.parallel label main background)).Attended)
    (led : (resume wake main first cx).live.Attended)
    (woken : (resume wake background second cx).live.Attended) :
    (resume wake (.parallel label main background) (.parallel status first second)
      cx).live.Attended := by
  rw [resume]
  split
  · have heard := (resume_agrees wake main first cx).orderly
    have beside := accompany_keeps (fun kid _ => kid.Attended)
      (fun kid cx => evaluate_attended background weighed kid cx)
      (fun kid cx _ => stop_attended background kid cx) label
      (resume wake main first cx).report second (resume wake main first cx).cx attended.2.2
    dsimp only
    rw [accompany_report, heard.reported]
    exact ⟨resume_upheld wake main first cx attended.1, led, beside⟩
  · split
    · exact ⟨attended.1, attended.2.1, woken⟩
    · exact attended

end Nodes

mutual

theorem resume_attended (wake : Wake) : (tree : Tree H) → tree.Weighed → (live : Live H tree) →
    (cx : Context H) → live.Attended → (resume wake tree live cx).live.Attended
  | .relay _ _ child, weighed, .relay _ kid, cx, attended =>
    relay_attended attended (resume_attended wake child weighed kid cx attended.2)
  | .repeater _ child, weighed, .repeater _ _ kid, cx, attended =>
    repeater_attended weighed attended (resume_attended wake child weighed kid cx attended.2)
  | .loop label period child, weighed, .loop status timer kid, cx, attended => by
    rw [resume]
    split
    · split
      · exact ⟨fun _ => Option.some_ne_none _, evaluate_attended child weighed kid _ attended.2⟩
      · exact attended
    · split
      · exact ⟨attended.1, resume_attended wake child weighed kid cx attended.2⟩
      · exact attended
  | .gate _ _ _ _ child, weighed, .gate _ _ _ _ kid, cx, attended =>
    gate_attended weighed attended (resume_attended wake child weighed kid cx attended.2)
  | .ordered order label children, weighed, .ordered status kids, cx, attended => by
    rw [resume]
    exact ⟨resumeFrom_runs wake order label children kids cx attended.1,
      resumeFrom_attended wake order label children weighed kids cx attended.2⟩
  | .weighted _ _ children, weighed, .weighted _ _ kids, cx, attended =>
    weighted_attended attended (resumeRouted_attended wake children weighed.2.2 kids cx attended.2)
  | .parallel _ main background, weighed, .parallel _ first second, cx, attended =>
    parallel_attended weighed.2 attended
      (resume_attended wake main weighed.1 first cx attended.2.1)
      (resume_attended wake background weighed.2 second cx attended.2.2)
  | .condition _ _, _, .condition _ _, _, attended => attended
  | .action label bound, _, .action status unit task, cx, attended => by
    rw [resume]
    split
    · intro running
      obtain ⟨ran, same⟩ := stepAction_running running
      rw [same]
      exact attended ran
    · exact attended

theorem resumeFrom_attended (wake : Wake) (order : Order) (label : Label) :
    (trees : Forest H) → trees.Weighed → (lives : LiveForest H trees) → (cx : Context H) →
    lives.Attended → (resumeFrom wake order label trees lives cx).live.Attended
  | .nil, _, .nil, _, _ => trivial
  | .cons tree trees, weighed, .cons head tail, cx, attended => by
    rw [resumeFrom]
    split
    · have woken := resume_attended wake tree weighed.1 head cx attended.1
      have heard := react_keeps (fun later _ => later.Attended)
        (fun later cx _ => stopAll_attended trees later cx) order label
        (resume wake tree head cx).report tail (resume wake tree head cx).cx attended.2
      dsimp only
      split
      · exact ⟨woken, runFrom_attended order label trees weighed.2 _ _ heard⟩
      · exact ⟨woken, heard⟩
    · exact ⟨attended.1, resumeFrom_attended wake order label trees weighed.2 tail cx attended.2⟩

theorem resumeRouted_attended (wake : Wake) : (trees : Forest H) → trees.Weighed →
    (lives : LiveForest H trees) → (cx : Context H) → lives.Attended →
    (resumeRouted wake trees lives cx).live.Attended
  | .nil, _, .nil, _, _ => trivial
  | .cons tree trees, weighed, .cons head tail, cx, attended => by
    rw [resumeRouted]
    split
    · exact ⟨resume_attended wake tree weighed.1 head cx attended.1, attended.2⟩
    · exact ⟨attended.1, resumeRouted_attended wake trees weighed.2 tail cx attended.2⟩

end

end ReactiveTree
