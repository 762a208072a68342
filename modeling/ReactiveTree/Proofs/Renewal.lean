import ReactiveTree.Proofs.Run

/-!
A stop is a full reset. What it leaves behind in a tree, beside the units, is the state that a gate
reported last, and a gate reads that only while it polls. So two states of a tree that differ in it
alone at gates that do not poll are alike: no call tells them apart, and the states it leaves are
alike again.
-/

namespace ReactiveTree

variable {H : Host} {σ : Type}

mutual

/-- The states agree, but for what the gates that do not poll reported last. -/
def Live.Alike : {tree : Tree H} → Live H tree → Live H tree → Prop
  | _, .relay status kid, .relay status' kid' => status = status' ∧ kid.Alike kid'
  | _, .repeater status deferred kid, .repeater status' deferred' kid' =>
    status = status' ∧ deferred = deferred' ∧ kid.Alike kid'
  | _, .loop status timer kid, .loop status' timer' kid' =>
    status = status' ∧ timer = timer' ∧ kid.Alike kid'
  | _, .gate status unit timer last kid, .gate status' unit' timer' last' kid' =>
    status = status' ∧ unit = unit' ∧ timer = timer' ∧ (timer ≠ none → last = last') ∧
      kid.Alike kid'
  | _, .ordered status kids, .ordered status' kids' => status = status' ∧ kids.Alike kids'
  | _, .weighted status selected kids, .weighted status' selected' kids' =>
    status = status' ∧ selected = selected' ∧ kids.Alike kids'
  | _, .parallel status first second, .parallel status' first' second' =>
    status = status' ∧ first.Alike first' ∧ second.Alike second'
  | _, .condition status unit, .condition status' unit' => status = status' ∧ unit = unit'
  | _, .action status unit task, .action status' unit' task' =>
    status = status' ∧ unit = unit' ∧ task = task'

def LiveForest.Alike : {trees : Forest H} → LiveForest H trees → LiveForest H trees → Prop
  | _, .nil, .nil => True
  | _, .cons head tail, .cons head' tail' => head.Alike head' ∧ tail.Alike tail'

end

def Stopped.Alike (rel : σ → σ → Prop) (stopped other : Stopped H σ) : Prop :=
  ∃ live, other = { stopped with live } ∧ rel stopped.live live

def Turn.Alike (rel : σ → σ → Prop) (turn other : Turn H σ) : Prop :=
  ∃ live, other = { turn with live } ∧ rel turn.live live

section Rules

variable {rel : σ → σ → Prop} {activate : σ → Context H → Turn H σ}
  {halt : σ → Context H → Stopped H σ}
  (activates : ∀ part other cx, rel part other → (activate part cx).Alike rel (activate other cx))
  (halts : ∀ part other cx, rel part other → (halt part cx).Alike rel (halt other cx))

include activates in
theorem repeatChild_alike (label : Label) (deferred : Option Nat) (kid other : σ) (cx : Context H)
    (alike : rel kid other) :
    ∃ part, repeatChild label activate deferred other cx =
        { repeatChild label activate deferred kid cx with kid := part } ∧
      rel (repeatChild label activate deferred kid cx).kid part := by
  obtain ⟨active, same, runs⟩ := activates kid other cx alike
  unfold repeatChild
  simp only [same]
  cases (activate kid cx).report.terminal? <;> exact ⟨active, rfl, runs⟩

include activates in
theorem cycleChild_alike (label : Label) (period : Nat) (kid other : σ) (cx : Context H)
    (alike : rel kid other) :
    ∃ part, cycleChild label period activate other cx =
        { cycleChild label period activate kid cx with kid := part } ∧
      rel (cycleChild label period activate kid cx).kid part := by
  obtain ⟨active, same, runs⟩ := activates kid other (cx.announce label .loop .running) alike
  refine ⟨active, ?_, runs⟩
  simp only [cycleChild, same]

include halts in
theorem react_alike (order : Order) (label : Label) (report : Report) (later other : σ)
    (cx : Context H) (alike : rel later other) :
    ∃ part, order.react label halt report other cx =
        { order.react label halt report later cx with later := part } ∧
      rel (order.react label halt report later cx).later part := by
  induction report generalizing later other cx with
  | nil => exact ⟨other, rfl, alike⟩
  | cons status report ih =>
    obtain ⟨halted, same, halves⟩ := halts later other cx alike
    cases order with
    | selector =>
      cases status with
      | success =>
        refine ⟨halted, ?_, halves⟩
        simp only [Order.react, same]
      | running =>
        obtain ⟨part, equal, related⟩ := ih _ halted
          ((halt later cx).cx.announce label .selector .running) halves
        refine ⟨part, ?_, related⟩
        simp only [Order.react, same, equal]
        rfl
      | failure => exact ⟨other, rfl, alike⟩
      | _ => exact ih later other cx alike
    | sequencer =>
      cases status with
      | success => exact ⟨other, rfl, alike⟩
      | running =>
        obtain ⟨part, equal, related⟩ := ih later other (cx.announce label .sequencer .running) alike
        refine ⟨part, ?_, related⟩
        simp only [Order.react, equal]
        rfl
      | failure =>
        refine ⟨halted, ?_, halves⟩
        simp only [Order.react, same]
      | _ => exact ih later other cx alike

include activates halts

theorem accompany_alike (label : Label) (report : Report) (background other : σ) (cx : Context H)
    (alike : rel background other) :
    (accompany label activate halt report background cx).Alike rel
      (accompany label activate halt report other cx) := by
  induction report generalizing background other cx with
  | nil => exact ⟨other, rfl, alike⟩
  | cons status report ih =>
    unfold accompany
    split
    · obtain ⟨halted, same, halves⟩ := halts background other cx alike
      obtain ⟨part, equal, related⟩ := ih _ halted
        ((halt background cx).cx.announce label .simpleParallel status) halves
      refine ⟨part, ?_, related⟩
      simp only [same, equal]
      rfl
    · split
      · obtain ⟨active, same, runs⟩ := activates background other cx alike
        obtain ⟨part, equal, related⟩ := ih _ active
          ((activate background cx).cx.announce label .simpleParallel status) runs
        refine ⟨part, ?_, related⟩
        simp only [same, equal]
        rfl
      · exact ih background other cx alike

theorem pollGate_alike (label : Label) (mode : PollMode) (period : Nat) (status : Status)
    (unit : H.Condition) (last : Status) (kid other : σ) (cx : Context H) (alike : rel kid other) :
    ∃ part, pollGate label mode period activate halt status unit last other cx =
        { pollGate label mode period activate halt status unit last kid cx with kid := part } ∧
      rel (pollGate label mode period activate halt status unit last kid cx).kid part := by
  match answer : (cx.poll label unit).answer with
  | none =>
    obtain ⟨halted, same, halves⟩ := halts kid other (cx.poll label unit).cx alike
    simp only [pollGate_faulted answer, same]
    exact ⟨halted, rfl, halves⟩
  | some true =>
    by_cases succeeded : last = .success
    · simp only [pollGate_content answer succeeded]
      exact ⟨other, rfl, alike⟩
    · obtain ⟨active, same, runs⟩ := activates kid other
        ((cx.poll label unit).cx.announce label .loopConditionNode .running) alike
      simp only [pollGate_opens answer succeeded, same]
      exact ⟨active, rfl, runs⟩
  | some false =>
    by_cases failed : last = .failure
    · simp only [pollGate_closed answer failed]
      exact ⟨other, rfl, alike⟩
    · obtain ⟨halted, same, halves⟩ := halts kid other
        ((cx.poll label unit).cx.announce label .loopConditionNode .failure) alike
      simp only [pollGate_closes answer failed, same]
      exact ⟨halted, rfl, halves⟩

end Rules

mutual

theorem stop_alike : (tree : Tree H) → (live other : Live H tree) → (cx : Context H) →
    live.Alike other → (stop tree live cx).Alike Live.Alike (stop tree other cx)
  | .relay _ _ child, .relay status kid, .relay _ kid', cx, alike => by
    obtain ⟨rfl, below⟩ := alike
    obtain ⟨halted, same, halves⟩ := stop_alike child kid kid' cx below
    simp only [stop, same]
    exact ⟨.relay .waiting halted, rfl, rfl, halves⟩
  | .repeater _ child, .repeater status deferred kid, .repeater _ _ kid', cx, alike => by
    obtain ⟨rfl, rfl, below⟩ := alike
    obtain ⟨halted, same, halves⟩ := stop_alike child kid kid' (cx.cancel deferred) below
    simp only [stop, same]
    exact ⟨.repeater .waiting none halted, rfl, rfl, rfl, halves⟩
  | .loop _ _ child, .loop status timer kid, .loop _ _ kid', cx, alike => by
    obtain ⟨rfl, rfl, below⟩ := alike
    obtain ⟨halted, same, halves⟩ := stop_alike child kid kid' (cx.cancel timer) below
    simp only [stop, same]
    exact ⟨.loop .waiting none halted, rfl, rfl, rfl, halves⟩
  | .gate _ _ _ _ child, .gate status unit timer _ kid, .gate _ _ _ last' kid', cx, alike => by
    obtain ⟨rfl, rfl, rfl, _, below⟩ := alike
    obtain ⟨halted, same, halves⟩ := stop_alike child kid kid' (cx.cancel timer) below
    simp only [stop, same]
    -- the gate polls no more, so it may keep what it reported last
    exact ⟨.gate .waiting unit none last' halted, rfl, rfl, rfl, rfl, nofun, halves⟩
  | .ordered _ _ children, .ordered status kids, .ordered _ kids', cx, alike => by
    obtain ⟨rfl, below⟩ := alike
    obtain ⟨halted, same, halves⟩ := stopAll_alike children kids kids' cx below
    simp only [stop, same]
    exact ⟨.ordered .waiting halted, rfl, rfl, halves⟩
  | .weighted _ _ children, .weighted status selected kids, .weighted _ _ kids', cx, alike => by
    obtain ⟨rfl, rfl, below⟩ := alike
    obtain ⟨halted, same, halves⟩ := stopAll_alike children kids kids' cx below
    simp only [stop, same]
    exact ⟨.weighted .waiting none halted, rfl, rfl, rfl, halves⟩
  | .parallel _ main background, .parallel status first second, .parallel _ first' second', cx,
      alike => by
    obtain ⟨rfl, before, beside⟩ := alike
    obtain ⟨halted, same, halves⟩ := stop_alike main first first' cx before
    obtain ⟨halted', same', halves'⟩ := stop_alike background second second'
      (stop main first cx).cx beside
    simp only [stop, same, same']
    exact ⟨.parallel .waiting halted halted', rfl, rfl, halves, halves'⟩
  | .condition _ _, .condition status unit, .condition _ _, cx, alike => by
    obtain ⟨rfl, rfl⟩ := alike
    exact ⟨_, rfl, rfl, rfl⟩
  | .action _ _, .action status unit task, .action _ _ _, cx, alike => by
    obtain ⟨rfl, rfl, rfl⟩ := alike
    exact ⟨_, rfl, rfl, rfl, rfl⟩

theorem stopAll_alike : (trees : Forest H) → (lives others : LiveForest H trees) →
    (cx : Context H) → lives.Alike others →
    (stopAll trees lives cx).Alike LiveForest.Alike (stopAll trees others cx)
  | .nil, .nil, .nil, _, _ => ⟨.nil, rfl, trivial⟩
  | .cons tree trees, .cons head tail, .cons head' tail', cx, alike => by
    obtain ⟨here, after⟩ := alike
    obtain ⟨halted, same, halves⟩ := stop_alike tree head head' cx here
    obtain ⟨rest, same', halves'⟩ := stopAll_alike trees tail tail' (stop tree head cx).cx after
    simp only [stopAll, same, same']
    exact ⟨.cons halted rest, rfl, halves, halves'⟩

end

mutual

theorem evaluate_alike : (tree : Tree H) → (live other : Live H tree) → (cx : Context H) →
    live.Alike other → (evaluate tree live cx).Alike Live.Alike (evaluate tree other cx)
  | .relay role label child, .relay status kid, .relay _ kid', cx, alike => by
    obtain ⟨rfl, below⟩ := alike
    simp only [evaluate]
    split
    · exact ⟨.relay status kid', rfl, rfl, below⟩
    · obtain ⟨active, same, runs⟩ := evaluate_alike child kid kid'
        (cx.announce label role.kind .running) below
      simp only [same]
      exact ⟨.relay _ active, rfl, rfl, runs⟩
  | .repeater label child, .repeater status deferred kid, .repeater _ _ kid', cx, alike => by
    obtain ⟨rfl, rfl, below⟩ := alike
    simp only [evaluate]
    split
    · exact ⟨.repeater status deferred kid', rfl, rfl, rfl, below⟩
    · obtain ⟨active, same, runs⟩ := repeatChild_alike (evaluate_alike child) label none kid kid'
        ((cx.cancel deferred).announce label .repeater .running) below
      simp only [same]
      exact ⟨.repeater .running _ active, rfl, rfl, rfl, runs⟩
  | .loop label period child, .loop status timer kid, .loop _ _ kid', cx, alike => by
    obtain ⟨rfl, rfl, below⟩ := alike
    simp only [evaluate]
    split
    · exact ⟨.loop status timer kid', rfl, rfl, rfl, below⟩
    · obtain ⟨active, same, runs⟩ := cycleChild_alike (evaluate_alike child) label period kid kid'
        (cx.cancel timer) below
      simp only [same]
      exact ⟨.loop .running _ active, rfl, rfl, rfl, runs⟩
  | .gate label _ mode period child, .gate status unit timer last kid, .gate _ _ _ last' kid', cx,
      alike => by
    obtain ⟨rfl, rfl, rfl, heard, below⟩ := alike
    simp only [evaluate]
    split
    · exact ⟨.gate status unit timer last' kid', rfl, rfl, rfl, rfl, heard, below⟩
    · -- an activation does not ask what the gate reported before
      obtain ⟨part, same, related⟩ := pollGate_alike (evaluate_alike child) (stop_alike child) label
        mode period .running unit .running kid kid'
        ((cx.cancel timer).announce label .loopConditionNode .running) below
      simp only [same]
      exact ⟨.gate _ _ _ _ part, rfl, rfl, rfl, rfl, fun _ => rfl, related⟩
  | .ordered order label children, .ordered status kids, .ordered _ kids', cx, alike => by
    obtain ⟨rfl, below⟩ := alike
    simp only [evaluate]
    split
    · exact ⟨.ordered status kids', rfl, rfl, below⟩
    · obtain ⟨active, same, runs⟩ := runFrom_alike order label children kids kids'
        (cx.announce label order.kind .running) below
      simp only [same]
      exact ⟨.ordered _ active, rfl, rfl, runs⟩
  | .weighted label bounds children, .weighted status selected kids, .weighted _ _ kids', cx,
      alike => by
    obtain ⟨rfl, rfl, below⟩ := alike
    simp only [evaluate]
    split
    · exact ⟨.weighted status selected kids', rfl, rfl, rfl, below⟩
    · obtain ⟨active, same, runs⟩ := evaluateAt_alike children
        (Weights.pick bounds (cx.announce label .weightedRandomSelector .running).draw.1) kids kids'
        (cx.announce label .weightedRandomSelector .running).draw.2 below
      simp only [same]
      exact ⟨.weighted _ _ active, rfl, rfl, rfl, runs⟩
  | .parallel label main background, .parallel status first second, .parallel _ first' second', cx,
      alike => by
    obtain ⟨rfl, before, beside⟩ := alike
    simp only [evaluate]
    split
    · exact ⟨.parallel status first' second', rfl, rfl, before, beside⟩
    · obtain ⟨active, same, runs⟩ := evaluate_alike main first first'
        (cx.announce label .simpleParallel .running) before
      obtain ⟨other, equal, related⟩ := accompany_alike (evaluate_alike background)
        (stop_alike background) label
        (evaluate main first (cx.announce label .simpleParallel .running)).report second second'
        (evaluate main first (cx.announce label .simpleParallel .running)).cx beside
      simp only [same, equal]
      split
      · obtain ⟨started, again, runs'⟩ := evaluate_alike background _ other
          (accompany label (evaluate background) (stop background)
            (evaluate main first (cx.announce label .simpleParallel .running)).report second
            (evaluate main first (cx.announce label .simpleParallel .running)).cx).cx related
        simp only [again]
        exact ⟨.parallel _ active started, rfl, rfl, runs, runs'⟩
      · exact ⟨.parallel _ active other, rfl, rfl, runs, related⟩
  | .condition label _, .condition status unit, .condition _ _, cx, alike => by
    obtain ⟨rfl, rfl⟩ := alike
    simp only [evaluate]
    split <;> exact ⟨_, rfl, rfl, rfl⟩
  | .action label _, .action status unit task, .action _ _ _, cx, alike => by
    obtain ⟨rfl, rfl, rfl⟩ := alike
    simp only [evaluate]
    split <;> exact ⟨_, rfl, rfl, rfl, rfl⟩

theorem runFrom_alike (order : Order) (label : Label) : (trees : Forest H) →
    (lives others : LiveForest H trees) → (cx : Context H) → lives.Alike others →
    (runFrom order label trees lives cx).Alike LiveForest.Alike
      (runFrom order label trees others cx)
  | .nil, .nil, .nil, _, _ => ⟨.nil, rfl, trivial⟩
  | .cons tree trees, .cons head tail, .cons head' tail', cx, alike => by
    obtain ⟨here, after⟩ := alike
    obtain ⟨active, same, runs⟩ := evaluate_alike tree head head' cx here
    obtain ⟨later, equal, related⟩ := react_alike (stopAll_alike trees) order label
      (evaluate tree head cx).report tail tail' (evaluate tree head cx).cx after
    simp only [runFrom, same, equal]
    split
    · obtain ⟨rest, again, runs'⟩ := runFrom_alike order label trees _ later
        (order.react label (stopAll trees) (evaluate tree head cx).report tail
          (evaluate tree head cx).cx).cx related
      simp only [again]
      exact ⟨.cons active rest, rfl, runs, runs'⟩
    · exact ⟨.cons active later, rfl, runs, related⟩

theorem evaluateAt_alike : (trees : Forest H) → (index : Nat) →
    (lives others : LiveForest H trees) → (cx : Context H) → lives.Alike others →
    (evaluateAt trees index lives cx).Alike LiveForest.Alike (evaluateAt trees index others cx)
  | .nil, _, .nil, .nil, _, _ => ⟨.nil, rfl, trivial⟩
  | .cons tree _, 0, .cons head tail, .cons head' tail', cx, alike => by
    obtain ⟨here, after⟩ := alike
    obtain ⟨active, same, runs⟩ := evaluate_alike tree head head' cx here
    simp only [evaluateAt, same]
    exact ⟨.cons active tail', rfl, runs, after⟩
  | .cons _ trees, index + 1, .cons head tail, .cons head' tail', cx, alike => by
    obtain ⟨here, after⟩ := alike
    obtain ⟨active, same, runs⟩ := evaluateAt_alike trees index tail tail' cx after
    simp only [evaluateAt, same]
    exact ⟨.cons head' active, rfl, here, runs⟩

end

section Nodes

variable {wake : Wake} {label : Label} {status : Status} {child : Tree H} {cx : Context H}

theorem repeater_alike {deferred : Option Nat} {kid kid' : Live H child} (below : kid.Alike kid')
    (turn : (resume wake child kid cx).Alike Live.Alike (resume wake child kid' cx)) :
    (resume wake (.repeater label child) (.repeater status deferred kid) cx).Alike Live.Alike
      (resume wake (.repeater label child) (.repeater status deferred kid') cx) := by
  have unchanged : (Live.repeater status deferred kid : Live H (.repeater label child)).Alike
      (.repeater status deferred kid') := ⟨rfl, rfl, below⟩
  have again (deferred : Option Nat) := repeatChild_alike (evaluate_alike child) label deferred
  obtain ⟨woken, same, runs⟩ := turn
  simp only [resume, same]
  split
  · split
    · obtain ⟨active, equal, related⟩ := again none kid kid' (cx.cancel deferred) below
      simp only [equal]
      exact ⟨.repeater status _ active, rfl, rfl, rfl, related⟩
    · exact ⟨_, rfl, unchanged⟩
  · split
    · split
      · obtain ⟨active, equal, related⟩ := again deferred _ woken (resume wake child kid cx).cx runs
        simp only [equal]
        exact ⟨.repeater status _ active, rfl, rfl, rfl, related⟩
      · exact ⟨.repeater status deferred woken, rfl, rfl, rfl, runs⟩
    · exact ⟨_, rfl, unchanged⟩

theorem gate_alike {bound unit : H.Condition} {mode : PollMode} {period : Nat}
    {timer : Option Nat} {last last' : Status} {kid kid' : Live H child}
    (heard : timer ≠ none → last = last') (below : kid.Alike kid')
    (turn : (resume wake child kid cx).Alike Live.Alike (resume wake child kid' cx)) :
    (resume wake (.gate label bound mode period child) (.gate status unit timer last kid)
      cx).Alike Live.Alike
      (resume wake (.gate label bound mode period child) (.gate status unit timer last' kid')
        cx) := by
  obtain ⟨woken, same, runs⟩ := turn
  simp only [resume, same]
  split
  · split
    · -- the gate polls, so both reported the same
      rename_i held
      obtain rfl := heard (by rw [held]; nofun)
      obtain ⟨part, equal, related⟩ := pollGate_alike (evaluate_alike child) (stop_alike child)
        label mode period status unit last kid kid' cx below
      simp only [equal]
      exact ⟨.gate _ _ _ _ part, rfl, rfl, rfl, rfl, fun _ => rfl, related⟩
    · exact ⟨.gate status unit timer last' kid', rfl, rfl, rfl, rfl, heard, below⟩
  · split
    · split
      · exact ⟨.gate _ unit none _ woken, rfl, rfl, rfl, rfl, nofun, runs⟩
      · refine ⟨.gate _ unit timer _ woken, rfl, rfl, rfl, rfl, ?_, runs⟩
        intro held
        rw [heard held]
    · exact ⟨.gate status unit timer last' kid', rfl, rfl, rfl, rfl, heard, below⟩

theorem parallel_alike {main background : Tree H} {first first' : Live H main}
    {second second' : Live H background} (before : first.Alike first')
    (beside : second.Alike second')
    (led : (resume wake main first cx).Alike Live.Alike (resume wake main first' cx))
    (attended : (resume wake background second cx).Alike Live.Alike
      (resume wake background second' cx)) :
    (resume wake (.parallel label main background) (.parallel status first second) cx).Alike
      Live.Alike
      (resume wake (.parallel label main background) (.parallel status first' second') cx) := by
  obtain ⟨woken, same, runs⟩ := led
  obtain ⟨woken', same', runs'⟩ := attended
  obtain ⟨other, equal, related⟩ := accompany_alike (evaluate_alike background)
    (stop_alike background) label (resume wake main first cx).report second second'
    (resume wake main first cx).cx beside
  simp only [resume, same, same', equal]
  split
  · exact ⟨.parallel _ woken other, rfl, rfl, runs, related⟩
  · split
    · exact ⟨.parallel status first' woken', rfl, rfl, before, runs'⟩
    · exact ⟨.parallel status first' second', rfl, rfl, before, beside⟩

end Nodes

mutual

theorem resume_alike (wake : Wake) : (tree : Tree H) → (live other : Live H tree) →
    (cx : Context H) → live.Alike other →
    (resume wake tree live cx).Alike Live.Alike (resume wake tree other cx)
  | .relay role label child, .relay status kid, .relay _ kid', cx, alike => by
    obtain ⟨rfl, below⟩ := alike
    obtain ⟨woken, same, runs⟩ := resume_alike wake child kid kid' cx below
    simp only [resume, same]
    split
    · exact ⟨.relay _ woken, rfl, rfl, runs⟩
    · exact ⟨.relay status kid', rfl, rfl, below⟩
  | .repeater _ child, .repeater _ _ kid, .repeater _ _ kid', cx, alike => by
    obtain ⟨rfl, rfl, below⟩ := alike
    exact repeater_alike below (resume_alike wake child kid kid' cx below)
  | .loop label period child, .loop status timer kid, .loop _ _ kid', cx, alike => by
    obtain ⟨rfl, rfl, below⟩ := alike
    obtain ⟨woken, same, runs⟩ := resume_alike wake child kid kid' cx below
    obtain ⟨active, equal, related⟩ := cycleChild_alike (evaluate_alike child) label period kid kid'
      cx below
    simp only [resume, same, equal]
    split
    · split
      · exact ⟨.loop .running _ active, rfl, rfl, rfl, related⟩
      · exact ⟨.loop status timer kid', rfl, rfl, rfl, below⟩
    · split
      · exact ⟨.loop status timer woken, rfl, rfl, rfl, runs⟩
      · exact ⟨.loop status timer kid', rfl, rfl, rfl, below⟩
  | .gate _ _ _ _ child, .gate _ _ _ _ kid, .gate _ _ _ _ kid', cx, alike => by
    obtain ⟨rfl, rfl, rfl, heard, below⟩ := alike
    exact gate_alike heard below (resume_alike wake child kid kid' cx below)
  | .ordered order label children, .ordered status kids, .ordered _ kids', cx, alike => by
    obtain ⟨rfl, below⟩ := alike
    obtain ⟨woken, same, runs⟩ := resumeFrom_alike wake order label children kids kids' cx below
    simp only [resume, same]
    exact ⟨.ordered _ woken, rfl, rfl, runs⟩
  | .weighted label bounds children, .weighted status selected kids, .weighted _ _ kids', cx,
      alike => by
    obtain ⟨rfl, rfl, below⟩ := alike
    obtain ⟨woken, same, runs⟩ := resumeRouted_alike wake children kids kids' cx below
    simp only [resume, same]
    split <;> exact ⟨.weighted _ selected woken, rfl, rfl, rfl, runs⟩
  | .parallel _ main background, .parallel _ first second, .parallel _ first' second', cx,
      alike => by
    obtain ⟨rfl, before, beside⟩ := alike
    exact parallel_alike before beside (resume_alike wake main first first' cx before)
      (resume_alike wake background second second' cx beside)
  | .condition _ _, .condition status unit, .condition _ _, cx, alike => by
    obtain ⟨rfl, rfl⟩ := alike
    exact ⟨_, rfl, rfl, rfl⟩
  | .action label _, .action status unit task, .action _ _ _, cx, alike => by
    obtain ⟨rfl, rfl, rfl⟩ := alike
    simp only [resume]
    split <;> exact ⟨_, rfl, rfl, rfl, rfl⟩

theorem resumeFrom_alike (wake : Wake) (order : Order) (label : Label) : (trees : Forest H) →
    (lives others : LiveForest H trees) → (cx : Context H) → lives.Alike others →
    (resumeFrom wake order label trees lives cx).Alike LiveForest.Alike
      (resumeFrom wake order label trees others cx)
  | .nil, .nil, .nil, _, _ => ⟨.nil, rfl, trivial⟩
  | .cons tree trees, .cons head tail, .cons head' tail', cx, alike => by
    obtain ⟨here, after⟩ := alike
    obtain ⟨woken, same, runs⟩ := resume_alike wake tree head head' cx here
    obtain ⟨later, equal, related⟩ := react_alike (stopAll_alike trees) order label
      (resume wake tree head cx).report tail tail' (resume wake tree head cx).cx after
    simp only [resumeFrom, same, equal]
    split
    · split
      · obtain ⟨rest, again, runs'⟩ := runFrom_alike order label trees _ later
          (order.react label (stopAll trees) (resume wake tree head cx).report tail
            (resume wake tree head cx).cx).cx related
        simp only [again]
        exact ⟨.cons woken rest, rfl, runs, runs'⟩
      · exact ⟨.cons woken later, rfl, runs, related⟩
    · obtain ⟨rest, again, runs'⟩ := resumeFrom_alike wake order label trees tail tail' cx after
      simp only [again]
      exact ⟨.cons head' rest, rfl, here, runs'⟩

theorem resumeRouted_alike (wake : Wake) : (trees : Forest H) →
    (lives others : LiveForest H trees) → (cx : Context H) → lives.Alike others →
    (resumeRouted wake trees lives cx).Alike LiveForest.Alike (resumeRouted wake trees others cx)
  | .nil, .nil, .nil, _, _ => ⟨.nil, rfl, trivial⟩
  | .cons tree trees, .cons head tail, .cons head' tail', cx, alike => by
    obtain ⟨here, after⟩ := alike
    obtain ⟨woken, same, runs⟩ := resume_alike wake tree head head' cx here
    obtain ⟨rest, again, runs'⟩ := resumeRouted_alike wake trees tail tail' cx after
    simp only [resumeRouted, same, again]
    split
    · exact ⟨.cons woken tail', rfl, runs, after⟩
    · exact ⟨.cons head' rest, rfl, here, runs'⟩

end

mutual

def Live.withUnits : {tree : Tree H} → Live H tree → Live H tree → Live H tree
  | _, .relay status kid, .relay _ other => .relay status (kid.withUnits other)
  | _, .repeater status deferred kid, .repeater _ _ other =>
    .repeater status deferred (kid.withUnits other)
  | _, .loop status timer kid, .loop _ _ other => .loop status timer (kid.withUnits other)
  | _, .gate status _ timer last kid, .gate _ unit _ _ other =>
    .gate status unit timer last (kid.withUnits other)
  | _, .ordered status kids, .ordered _ others => .ordered status (kids.withUnits others)
  | _, .weighted status selected kids, .weighted _ _ others =>
    .weighted status selected (kids.withUnits others)
  | _, .parallel status first second, .parallel _ other beside =>
    .parallel status (first.withUnits other) (second.withUnits beside)
  | _, .condition status _, .condition _ unit => .condition status unit
  | _, .action status _ task, .action _ unit _ => .action status unit task

def LiveForest.withUnits : {trees : Forest H} → LiveForest H trees → LiveForest H trees →
    LiveForest H trees
  | _, .nil, .nil => .nil
  | _, .cons head tail, .cons other others => .cons (head.withUnits other) (tail.withUnits others)

end

mutual

/-- A stopped tree is like one that never ran over the same units. -/
theorem stop_alike_initial : (tree : Tree H) → (live : Live H tree) → (cx : Context H) →
    (stop tree live cx).live.Alike ((Live.initial tree).withUnits (stop tree live cx).live)
  | .relay _ _ child, .relay _ kid, _ => ⟨rfl, stop_alike_initial child kid _⟩
  | .repeater _ child, .repeater _ _ kid, _ => ⟨rfl, rfl, stop_alike_initial child kid _⟩
  | .loop _ _ child, .loop _ _ kid, _ => ⟨rfl, rfl, stop_alike_initial child kid _⟩
  | .gate _ _ _ _ child, .gate _ _ _ _ kid, _ =>
    ⟨rfl, rfl, rfl, nofun, stop_alike_initial child kid _⟩
  | .ordered _ _ children, .ordered _ kids, _ => ⟨rfl, stopAll_alike_initial children kids _⟩
  | .weighted _ _ children, .weighted _ _ kids, _ =>
    ⟨rfl, rfl, stopAll_alike_initial children kids _⟩
  | .parallel _ main background, .parallel _ first second, _ =>
    ⟨rfl, stop_alike_initial main first _, stop_alike_initial background second _⟩
  | .condition _ _, .condition _ _, _ => ⟨rfl, rfl⟩
  | .action _ _, .action _ _ _, _ => ⟨rfl, rfl, rfl⟩

theorem stopAll_alike_initial : (trees : Forest H) → (lives : LiveForest H trees) →
    (cx : Context H) →
    (stopAll trees lives cx).live.Alike
      ((LiveForest.initial trees).withUnits (stopAll trees lives cx).live)
  | .nil, .nil, _ => trivial
  | .cons tree trees, .cons head tail, _ =>
    ⟨stop_alike_initial tree head _, stopAll_alike_initial trees tail _⟩

end

/-- What a host may ask for. A wake may come for any node and any task. -/
inductive Request (H : Host) where
  | command (command : Command H)
  | wake (due : Wake)

namespace Session

variable {tree : Tree H}

def answer (session : Session H tree) : Request H → Session H tree × Report
  | .command .evaluate => session.evaluate
  | .command (.tick delta) => session.tick delta
  | .command .stop => (session.stop, [])
  | .command (.change edit) => (session.edit edit, [])
  | .wake due => session.wake due

/-- The report of each request, with all that lies outside of the tree after it: target, blackboard,
agenda, sampler, and the journal of what observers were told and what units were called for. -/
def transcript : List (Request H) → Session H tree → List (Report × Context H)
  | [], _ => []
  | request :: rest, session =>
    let answered := session.answer request
    (answered.2, answered.1.cx) :: transcript rest answered.1

def Alike (session other : Session H tree) : Prop :=
  ∃ live, other = { session with live } ∧ session.live.Alike live

variable {session other : Session H tree}

theorem wake_alike (alike : session.Alike other) (due : Wake) :
    (session.wake due).1.Alike (other.wake due).1 ∧ (session.wake due).2 = (other.wake due).2 := by
  obtain ⟨live, rfl, below⟩ := alike
  obtain ⟨woken, same, runs⟩ := resume_alike due tree session.live live session.cx below
  simp only [wake, resume, same]
  split
  · exact ⟨⟨woken, rfl, runs⟩, rfl⟩
  · exact ⟨⟨live, rfl, below⟩, rfl⟩

theorem answer_alike (alike : session.Alike other) (request : Request H) :
    (session.answer request).1.Alike (other.answer request).1 ∧
      (session.answer request).2 = (other.answer request).2 := by
  cases request with
  | wake due => exact wake_alike alike due
  | command command =>
    obtain ⟨live, rfl, below⟩ := alike
    cases command with
    | evaluate =>
      obtain ⟨active, same, runs⟩ := evaluate_alike tree session.live live session.cx below
      simp only [answer, evaluate, same]
      exact ⟨⟨active, rfl, runs⟩, trivial⟩
    | tick delta =>
      have advanced : (session.advance delta).2.Alike _ := ⟨live, rfl, below⟩
      exact dispatch_beside Alike (fun due _ _ alike => wake_alike alike due) _ advanced
    | stop =>
      obtain ⟨halted, same, halves⟩ := stop_alike tree session.live live session.cx below
      simp only [answer, stop, same]
      exact ⟨⟨halted, rfl, halves⟩, trivial⟩
    | change edit => exact ⟨⟨live, rfl, below⟩, rfl⟩

theorem transcript_alike (alike : session.Alike other) (requests : List (Request H)) :
    session.transcript requests = other.transcript requests := by
  induction requests generalizing session other with
  | nil => rfl
  | cons request rest ih =>
    obtain ⟨answered, said⟩ := answer_alike alike request
    have later := ih answered
    obtain ⟨live, same, _⟩ := answered
    simp only [transcript, said, later]
    rw [same]

end Session

/-- After a stop, whatever came before it, a tree answers every request as a tree of the same graph
would that never ran, over the units, the blackboard and the sampler that the stop left. -/
theorem stopped_answers_as_fresh {tree : Tree H} (session : Session H tree) (target : H.Target)
    (queue : Agenda) (requests : List (Request H)) :
    let stopped := session.stop
    let cx : Context H := ⟨⟨target, stopped.blackboard⟩, queue, stopped.cx.sampler, []⟩
    let fresh := (Live.initial tree).withUnits stopped.live
    Session.transcript requests ⟨stopped.live, cx⟩ = Session.transcript requests ⟨fresh, cx⟩ := by
  intro stopped cx fresh
  have alike : stopped.live.Alike fresh := stop_alike_initial tree session.live session.cx
  have same : Session.Alike ⟨stopped.live, cx⟩ ⟨fresh, cx⟩ := ⟨fresh, rfl, alike⟩
  exact Session.transcript_alike same requests

end ReactiveTree
