import ReactiveTree.Proofs.Activation

/-!
Following one action through a call. What the journal says of it grows only by its own calls and
states, so every step of another node is quiet. The postures of all parts that a call does not work
on stand beside those of the part that it does, and are only carried along.

Stopping and activating are stages of the action. A stop moves every action once, so what it does is
known exactly.
-/

namespace ReactiveTree

variable {H : Host}

theorem Relay.kind_ne (role : Relay) : role.kind ≠ .actionNode := by
  cases role <;> nofun

theorem Order.kind_ne (order : Order) : order.kind ≠ .actionNode := by
  cases order <;> nofun

section Journal

variable {id : Nat} (cx : Context H) (label : Label)

theorem deeds_record (event : Event) :
    (cx.record event).deeds id = cx.deeds id ++ (event.deed? id).toList := by
  rw [Context.deeds, Context.events_record, List.filterMap_append]
  cases said : event.deed? id <;> simp [Context.deeds, said]

theorem deeds_announce {kind : NodeKind} (other : kind ≠ .actionNode) (status : Status) :
    (cx.announce label kind status).deeds id = cx.deeds id := by
  rw [Context.announce, deeds_record]
  cases kind with
  | actionNode => exact absurd rfl other
  | _ => exact List.append_nil _

theorem deeds_show (status : Status) :
    (cx.announce label .actionNode status).deeds label.id =
      cx.deeds label.id ++ [.showed status] := by
  simp [Context.announce, deeds_record, Event.deed?]

theorem deeds_show_apart (apart : label.id ≠ id) (status : Status) :
    (cx.announce label .actionNode status).deeds id = cx.deeds id := by
  simp [Context.announce, deeds_record, Event.deed?, apart]

theorem deeds_poll (unit : H.Condition) : (cx.poll label unit).cx.deeds id = cx.deeds id :=
  (deeds_record cx _).trans (List.append_nil _)

theorem deeds_act (phase : Phase) (unit : H.Action) :
    (cx.act label phase unit).cx.deeds label.id =
      cx.deeds label.id ++ [.called phase (cx.act label phase unit).answer] := by
  refine (deeds_record cx _).trans ?_
  simp [Event.deed?, Context.act]

theorem deeds_act_apart (apart : label.id ≠ id) (phase : Phase) (unit : H.Action) :
    (cx.act label phase unit).cx.deeds id = cx.deeds id := by
  refine (deeds_record cx _).trans ?_
  simp [Event.deed?, apart]

@[simp] theorem deeds_cancel (task : Option Nat) : (cx.cancel task).deeds id = cx.deeds id := by
  cases task <;> rfl

@[simp] theorem nextId_cancel (task : Option Nat) :
    (cx.cancel task).agenda.nextId = cx.agenda.nextId := by
  cases task <;> rfl

end Journal

/-- What an action may have done since some moment, with the task that it holds now. Stages may
follow on it. -/
structure Story (floor : Nat) where
  tells : List Deed → Option Nat → Prop
  goesOn : ∀ {deeds middle more after}, tells deeds middle → Stage floor middle more after →
    tells (deeds ++ more) after

def Story.course (floor : Nat) (before : Option Nat) : Story floor :=
  ⟨Course floor before, Course.step⟩

def Story.heard (floor id : Nat) (due : Wake) (before : Option Nat) : Story floor :=
  ⟨Heard floor id due before, Heard.step⟩

/-- The action with the id has the past and the story behind it, and is the only one among the
postures. -/
structure Reached (id : Nat) (past : List Deed) {floor : Nat} (story : Story floor)
    (postures : List Posture) (cx : Context H) : Prop where
  recent : floor ≤ cx.agenda.nextId
  follows : ∃ task deeds, postures = [.holding task] ∧ cx.deeds id = past ++ deeds ∧
    story.tells deeds task

namespace Reached

variable {id floor : Nat} {past : List Deed} {story : Story floor}
  {postures front back : List Posture} {cx cx' : Context H}

theorem quiet (reached : Reached id past story postures cx)
    (same : cx'.deeds id = cx.deeds id) (grows : cx.agenda.nextId ≤ cx'.agenda.nextId) :
    Reached id past story postures cx' := by
  obtain ⟨task, deeds, posed, did, told⟩ := reached.follows
  exact ⟨Nat.le_trans reached.recent grows, task, deeds, posed, same.trans did, told⟩

theorem swap {others : List Posture}
    (reached : Reached id past story (front ++ (back ++ others)) cx) :
    Reached id past story (back ++ (front ++ others)) cx := by
  obtain ⟨task, deeds, posed, did, told⟩ := reached.follows
  have moved := List.perm_append_comm_assoc back front others
  rw [posed] at moved
  exact ⟨reached.recent, task, deeds, List.perm_singleton.mp moved, did, told⟩

theorem announce (reached : Reached id past story postures cx) (label : Label)
    {kind : NodeKind} (other : kind ≠ .actionNode) (status : Status) :
    Reached id past story postures (cx.announce label kind status) :=
  reached.quiet (deeds_announce cx label other status) (Nat.le_refl _)

theorem announceAll (reached : Reached id past story postures cx) (label : Label)
    {kind : NodeKind} (other : kind ≠ .actionNode) (report : Report) :
    Reached id past story postures (cx.announceAll label kind report) := by
  induction report generalizing cx with
  | nil => exact reached
  | cons status report ih => exact ih (reached.announce label other status)

theorem cancel (reached : Reached id past story postures cx) (task : Option Nat) :
    Reached id past story postures (cx.cancel task) :=
  reached.quiet (deeds_cancel cx task) (Nat.le_of_eq (nextId_cancel cx task).symm)

theorem everyTick (reached : Reached id past story postures cx) (label : Label) :
    Reached id past story postures (cx.everyTick label).2 :=
  reached.quiet rfl (Nat.le_succ _)

theorem after (reached : Reached id past story postures cx) (label : Label) (delay : Nat) :
    Reached id past story postures (cx.after label delay).2 :=
  reached.quiet rfl (Nat.le_succ _)

theorem rearm (reached : Reached id past story postures cx) (label : Label) (mode : PollMode)
    (period : Nat) (halts : Bool) :
    Reached id past story postures (rearm label mode period halts cx).2 := by
  unfold ReactiveTree.rearm
  split
  · exact reached
  · exact reached.after label period

theorem poll (reached : Reached id past story postures cx) (label : Label)
    (unit : H.Condition) : Reached id past story postures (cx.poll label unit).cx :=
  reached.quiet (deeds_poll cx label unit) (Nat.le_refl _)

theorem runCondition (reached : Reached id past story postures cx) (label : Label)
    (unit : H.Condition) : Reached id past story postures (runCondition label unit cx).cx := by
  have other : NodeKind.conditionNode ≠ .actionNode := nofun
  have polled := (reached.announce label other .running).poll label unit
  unfold ReactiveTree.runCondition
  dsimp only
  split
  · exact polled.announce label other _
  · exact polled.announce label other .warning

end Reached

/-! What a stop does is known exactly: it moves every action once. -/

/-- The actions of a stopped part, each of which is stopped and holds nothing then. -/
structure Hushed (id : Nat) (before : List Posture) (cx : Context H) (after : List Posture)
    (cx' : Context H) : Prop where
  ends : ∃ ends, List.Forall₂ (fun posture deeds => Halted posture.runs deeds) before ends ∧
    cx'.deeds id = cx.deeds id ++ ends.flatten ∧ after = ends.map fun _ => .holding none
  still : cx'.agenda.nextId = cx.agenda.nextId

namespace Hushed

variable {id : Nat} {before after first last rest : List Posture} {cx cx' middle : Context H}

theorem silent (same : cx'.deeds id = cx.deeds id)
    (still : cx'.agenda.nextId = cx.agenda.nextId) : Hushed id [] cx [] cx' :=
  ⟨⟨[], .nil, by rw [same, List.flatten_nil, List.append_nil], rfl⟩, still⟩

theorem append (left : Hushed id before cx after middle) (right : Hushed id first middle last cx') :
    Hushed id (before ++ first) cx (after ++ last) cx' := by
  obtain ⟨ends, halts, did, rfl⟩ := left.ends
  obtain ⟨others, halts', did', rfl⟩ := right.ends
  refine ⟨⟨ends ++ others, List.rel_append halts halts', ?_, ?_⟩, right.still.trans left.still⟩
  · rw [did', did, List.flatten_append, List.append_assoc]
  · rw [List.map_append]

theorem cancel {task : Option Nat} (hushed : Hushed id before (cx.cancel task) after cx') :
    Hushed id before cx after cx' := by
  have given : Hushed id [] cx [] (cx.cancel task) :=
    silent (deeds_cancel cx task) (nextId_cancel cx task)
  exact given.append hushed

theorem settle (hushed : Hushed id before cx after cx') (label : Label) {kind : NodeKind}
    (other : kind ≠ .actionNode) (status : Status) :
    Hushed id before cx after (cx'.settle label kind status) := by
  unfold Context.settle
  split
  · exact hushed
  · have told : Hushed id [] cx' [] (cx'.announce label kind .waiting) :=
      silent (deeds_announce cx' label other .waiting) rfl
    have both := hushed.append told
    rwa [List.append_nil, List.append_nil] at both

theorem deeds_nil (hushed : Hushed id [] cx after cx') :
    cx'.deeds id = cx.deeds id ∧ after = [] := by
  obtain ⟨ends, halts, did, rfl⟩ := hushed.ends
  cases halts
  exact ⟨did.trans (List.append_nil _), rfl⟩

theorem deeds_singleton {posture : Posture} (hushed : Hushed id [posture] cx after cx') :
    ∃ deeds, Halted posture.runs deeds ∧ cx'.deeds id = cx.deeds id ++ deeds ∧
      after = [.holding none] := by
  obtain ⟨ends, halts, did, rfl⟩ := hushed.ends
  obtain ⟨deeds, others, halted, done, rfl⟩ := List.forall₂_cons_left_iff.mp halts
  cases done
  exact ⟨deeds, halted, did.trans (congrArg _ List.flatten_singleton), rfl⟩

end Hushed

theorem haltAction_halted (label : Label) (status : Status) (unit : H.Action) (cx : Context H) :
    ∃ deeds, Halted status.isRunning deeds ∧
      ((haltAction label status unit cx).cx.settle label .actionNode status).deeds label.id =
        cx.deeds label.id ++ deeds := by
  unfold haltAction Context.settle
  cases status with
  | running =>
    refine ⟨_, .halts (cx.act label .stop unit).answer, ?_⟩
    simp [Status.isRunning, deeds_show, deeds_act]
  | waiting => exact ⟨[], .idle, by simp [Status.isRunning]⟩
  | _ => exact ⟨_, .resets, by simp [Status.isRunning, deeds_show]⟩

theorem haltAction_apart {id : Nat} {label : Label} (apart : label.id ≠ id) (status : Status)
    (unit : H.Action) (cx : Context H) :
    ((haltAction label status unit cx).cx.settle label .actionNode status).deeds id =
      cx.deeds id := by
  unfold haltAction Context.settle
  cases status <;> simp [Status.isRunning, deeds_show_apart, deeds_act_apart, apart]

mutual

theorem stop_hushes (id : Nat) : (tree : Tree H) → (live : Live H tree) → (cx : Context H) →
    Hushed id (live.postures id) cx ((stop tree live cx).live.postures id) (stop tree live cx).cx
  | .relay role label child, .relay status kid, cx =>
    (stop_hushes id child kid cx).settle label role.kind_ne status
  | .repeater label child, .repeater status deferred kid, cx =>
    ((stop_hushes id child kid (cx.cancel deferred)).settle label (by decide) status).cancel
  | .loop label _ child, .loop status timer kid, cx =>
    ((stop_hushes id child kid (cx.cancel timer)).settle label (by decide) status).cancel
  | .gate label _ _ _ child, .gate status unit timer last kid, cx =>
    ((stop_hushes id child kid (cx.cancel timer)).settle label (by decide) status).cancel
  | .ordered order label children, .ordered status kids, cx =>
    (stopAll_hushes id children kids cx).settle label order.kind_ne status
  | .weighted label _ children, .weighted status _ kids, cx =>
    (stopAll_hushes id children kids cx).settle label (by decide) status
  | .parallel label main background, .parallel status first second, cx => by
    have left := stop_hushes id main first cx
    have right := stop_hushes id background second (stop main first cx).cx
    rw [stop, postures_parallel, postures_parallel]
    exact (left.append right).settle label (by decide) status
  | .condition label _, .condition status unit, cx => by
    have still : Hushed id [] cx [] cx := .silent rfl rfl
    exact still.settle label (by decide) status
  | .action label _, .action status unit task, cx => by
    have kept : ((haltAction label status unit (cx.cancel task)).cx.settle label .actionNode
        status).agenda.nextId = cx.agenda.nextId := by
      rw [Context.settle_agenda, haltAction_agenda, nextId_cancel]
    rw [stop]
    by_cases own : label.id = id
    · subst own
      obtain ⟨deeds, halted, did⟩ := haltAction_halted label status unit (cx.cancel task)
      rw [deeds_cancel] at did
      rw [postures_own, postures_own]
      exact ⟨⟨[deeds], .cons halted .nil, by rw [did, List.flatten_singleton], rfl⟩, kept⟩
    · rw [postures_other own, postures_other own]
      refine .silent ?_ kept
      rw [haltAction_apart own, deeds_cancel]

theorem stopAll_hushes (id : Nat) : (trees : Forest H) → (lives : LiveForest H trees) →
    (cx : Context H) → Hushed id (lives.postures id) cx
      ((stopAll trees lives cx).live.postures id) (stopAll trees lives cx).cx
  | .nil, .nil, _ => .silent rfl rfl
  | .cons tree trees, .cons head tail, cx => by
    have left := stop_hushes id tree head cx
    have right := stopAll_hushes id trees tail (stop tree head cx).cx
    rw [stopAll, postures_cons, postures_cons]
    exact left.append right

end

/-! The phases of an action. -/

section Phases

variable {id : Nat} {label : Label} {phase : Phase} {status : Status} {unit : H.Action}
  {task : Option Nat} {cx : Context H}

theorem isRunning_of_ending {answer : Progress} {shown : Status}
    (ended : answer.ending? = some shown) : shown.isRunning = false := by
  cases answer with
  | ongoing => cases ended
  | finished success => cases success <;> cases ended <;> rfl
  | faulted => cases ended; rfl

theorem stepAction_deeds (label : Label) (phase : Phase) (status : Status) (unit : H.Action)
    (task : Option Nat) (cx : Context H) :
    let ran := stepAction label phase status unit task cx
    (ran.status = status ∧ ran.task = task ∧
      ran.cx.deeds label.id = cx.deeds label.id ++ [.called phase .ongoing]) ∨
    ∃ answer shown, Progress.ending? answer = some shown ∧ ran.status.isRunning = false ∧
      ran.task = none ∧
      ran.cx.deeds label.id = cx.deeds label.id ++ [.called phase answer, .showed shown] := by
  have called := deeds_act cx label phase unit
  have ends (shown : Status) (ended : (cx.act label phase unit).answer.ending? = some shown) :
      (((cx.act label phase unit).cx.cancel task).announce label .actionNode shown).deeds label.id =
        cx.deeds label.id ++ [.called phase (cx.act label phase unit).answer, .showed shown] := by
    rw [deeds_show, deeds_cancel, called, List.append_assoc]
    rfl
  unfold stepAction
  dsimp only
  split
  · rename_i ongoing
    rw [ongoing] at called
    exact .inl ⟨rfl, rfl, called⟩
  · rename_i success finished
    have ended : (cx.act label phase unit).answer.ending? = some (.ofBool success) := by
      rw [finished]
      rfl
    exact .inr ⟨_, _, ended, isRunning_of_ending ended, rfl, ends _ ended⟩
  · rename_i faulted
    have ended : (cx.act label phase unit).answer.ending? = some .warning := by
      rw [faulted]
      rfl
    exact .inr ⟨_, _, ended, rfl, rfl, ends _ ended⟩

theorem stepAction_apart (apart : label.id ≠ id) :
    (stepAction label phase status unit task cx).cx.deeds id = cx.deeds id := by
  have called := deeds_act_apart cx label apart phase unit
  unfold stepAction
  dsimp only
  split
  · exact called
  · rw [deeds_show_apart _ label apart, deeds_cancel, called]
  · rw [deeds_show_apart _ label apart, deeds_cancel, called]

theorem stepAction_nextId : (stepAction label phase status unit task cx).cx.agenda.nextId =
    cx.agenda.nextId := by
  unfold stepAction
  dsimp only
  split
  · rfl
  · exact nextId_cancel _ task
  · exact nextId_cancel _ task

theorem startAction_apart (apart : label.id ≠ id) :
    (startAction label unit task cx).cx.deeds id = cx.deeds id := by
  have begun := deeds_show_apart (cx.cancel task) label apart .running
  rw [deeds_cancel] at begun
  unfold startAction
  dsimp only
  split
  · split
    · exact (stepAction_apart apart).trans ((stepAction_apart apart).trans begun)
    · exact (stepAction_apart apart).trans ((stepAction_apart apart).trans begun)
  · exact (stepAction_apart apart).trans begun

theorem startAction_nextId :
    cx.agenda.nextId ≤ (startAction label unit task cx).cx.agenda.nextId := by
  have begun : ((cx.cancel task).announce label .actionNode .running).agenda.nextId =
      cx.agenda.nextId := nextId_cancel cx task
  have step {phase : Phase} {unit : H.Action} {task : Option Nat} {cx' : Context H}
      (same : cx'.agenda.nextId = cx.agenda.nextId) :
      (stepAction label phase .running unit task cx').cx.agenda.nextId = cx.agenda.nextId :=
    stepAction_nextId.trans same
  unfold startAction
  dsimp only
  split
  · split
    · exact Nat.le_of_lt (Nat.lt_succ_of_le (Nat.le_of_eq (step (step begun)).symm))
    · exact Nat.le_of_eq (step (step begun)).symm
  · exact Nat.le_of_eq (step begun).symm

/-- An activation is a stage: a start, and an update unless the start ended it. -/
theorem startAction_stage (label : Label) (unit : H.Action) (cx : Context H) :
    let ran := startAction label unit none cx
    ∃ more after, Stage cx.agenda.nextId none more after ∧
      ran.cx.deeds label.id = cx.deeds label.id ++ more ∧
      (⟨ran.status.isRunning, ran.task⟩ : Posture) = .holding after := by
  let begun := cx.announce label .actionNode .running
  let started := stepAction label .start .running unit none begun
  let updated := stepAction label .update .running started.unit none started.cx
  have shows : begun.deeds label.id = cx.deeds label.id ++ [.showed .running] :=
    deeds_show cx label .running
  have recent : cx.agenda.nextId ≤ updated.cx.agenda.nextId := by
    have first : started.cx.agenda.nextId = begun.agenda.nextId := stepAction_nextId
    have second : updated.cx.agenda.nextId = started.cx.agenda.nextId := stepAction_nextId
    rw [second, first]
    exact Nat.le_refl _
  unfold startAction
  dsimp only [Context.cancel]
  rcases stepAction_deeds label .start .running unit none begun with
    ⟨runs, _, did⟩ | ⟨answer, shown, ended, quits, idle, did⟩
  · rw [if_pos (by rw [runs]; rfl)]
    rcases stepAction_deeds label .update .running started.unit none started.cx with
      ⟨lasts, _, did'⟩ | ⟨answer, shown, ended, quits, idle, did'⟩
    · rw [if_pos (by rw [lasts]; rfl)]
      refine ⟨_, _, .begins recent, ?_, rfl⟩
      refine did'.trans ?_
      rw [did, shows]
      simp
    · rw [if_neg (by rw [quits]; nofun)]
      refine ⟨_, none, .endsByUpdate ended, ?_, ?_⟩
      · rw [did', did, shows]
        simp
      · rw [quits, idle]
        rfl
  · rw [if_neg (by rw [quits]; nofun)]
    refine ⟨_, none, .endsByStart ended, ?_, ?_⟩
    · rw [did, shows]
      simp
    · rw [quits, idle]
      rfl

end Phases

end ReactiveTree
