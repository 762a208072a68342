import ReactiveTree.Proofs.Correspondence

/-!
What a call of a node writes. It adds to the journal what the nodes of its tree do, and no more; it
never reads the journal, so a journal with another past grows by the same events; the clock stands
still, and new tasks have new numbers. The call is run beside itself over the other past, with a
bridge that keeps the two journals in step.
-/

namespace ReactiveTree

variable {H : Host}

inductive Summons where
  | evaluate
  | resume (wake : Wake)
  | stop
  deriving DecidableEq, Repr

def Live.visit {tree : Tree H} (live : Live H tree) (cx : Context H) :
    Summons → Turn H (Live H tree)
  | .evaluate => evaluate tree live cx
  | .resume wake => resume wake tree live cx
  | .stop => ⟨(stop tree live cx).live, (stop tree live cx).cx, []⟩

def Event.node : Event → Nat
  | .changed change => change.id
  | .called node _ => node

def Event.status? : Event → Option Status
  | .changed change => some change.status
  | .called _ _ => none

/-- What a call makes of an agenda. The clock stands still, and tasks that are new have numbers that
were not given out before. -/
structure Agenda.Grows (agenda later : Agenda) : Prop where
  now : later.now = agenda.now
  nextId : agenda.nextId ≤ later.nextId
  tasks : ∀ task ∈ later.tasks,
    task ∈ agenda.tasks ∨ agenda.nextId ≤ task.id ∧ task.id < later.nextId

namespace Agenda.Grows

theorem refl (agenda : Agenda) : agenda.Grows agenda := ⟨rfl, Nat.le_refl _, fun _ => .inl⟩

theorem trans {agenda middle later : Agenda} (first : agenda.Grows middle)
    (rest : middle.Grows later) : agenda.Grows later := by
  refine ⟨rest.now.trans first.now, Nat.le_trans first.nextId rest.nextId, ?_⟩
  intro task member
  rcases rest.tasks task member with there | ⟨recent, known⟩
  · rcases first.tasks task there with there | ⟨recent, known⟩
    · exact .inl there
    · exact .inr ⟨recent, Nat.lt_of_lt_of_le known rest.nextId⟩
  · exact .inr ⟨Nat.le_trans first.nextId recent, known⟩

theorem given {agenda later : Agenda} (grows : agenda.Grows later)
    (given : ∀ task ∈ agenda.tasks, task.id < agenda.nextId) :
    ∀ task ∈ later.tasks, task.id < later.nextId := by
  intro task member
  rcases grows.tasks task member with there | ⟨_, known⟩
  · exact Nat.lt_of_lt_of_le (given task there) grows.nextId
  · exact known

theorem cancel (agenda : Agenda) (task : Nat) : agenda.Grows (agenda.cancel task) :=
  ⟨rfl, Nat.le_refl _, fun _ member => .inl (List.mem_filter.mp member).1⟩

theorem register (agenda : Agenda) (node : Nat) (trigger : Trigger) :
    agenda.Grows (agenda.register node trigger).2 := by
  refine ⟨rfl, Nat.le_succ _, ?_⟩
  intro task member
  rcases List.mem_append.mp member with there | new
  · exact .inl there
  · obtain rfl := List.mem_singleton.mp new
    exact .inr ⟨Nat.le_refl _, Nat.lt_succ_self _⟩

theorem everyTick (agenda : Agenda) (node : Nat) : agenda.Grows (agenda.everyTick node).2 :=
  register agenda node .everyTick

theorem after (agenda : Agenda) (node delay : Nat) : agenda.Grows (agenda.after node delay).2 := by
  obtain ⟨_, nextId, tasks⟩ := register agenda node (.deadline (agenda.now + delay))
  exact ⟨rfl, nextId, tasks⟩

end Agenda.Grows

namespace Context

/-- What the journal tells of one node. -/
def about (cx : Context H) (id : Nat) : List Event :=
  cx.events.filter (·.node = id)

def amid (cx : Context H) (ids : List Nat) : List Event :=
  cx.events.filter (·.node ∈ ids)

theorem about_of_amid {cx cx' : Context H} {ids : List Nat} {id : Nat} (member : id ∈ ids)
    (same : cx'.amid ids = cx.amid ids) : cx'.about id = cx.about id := by
  have within (cx : Context H) : cx.about id = (cx.amid ids).filter (·.node = id) := by
    rw [amid, List.filter_filter]
    apply List.filter_congr
    intro event _
    by_cases own : event.node = id <;> simp [own, member]
  rw [within, within, same]

def shown (cx : Context H) (id : Nat) : Report :=
  (cx.about id).filterMap Event.status?

section Shown

variable (cx : Context H) (label : Label) (id : Nat)

theorem shown_announce (kind : NodeKind) (status : Status) :
    (cx.announce label kind status).shown label.id = cx.shown label.id ++ [status] := by
  unfold shown about announce
  rw [events_record, List.filter_append, List.filterMap_append]
  simp [Event.node, Event.status?]

theorem shown_settle (kind : NodeKind) (status : Status) :
    (cx.settle label kind status).shown label.id =
      cx.shown label.id ++ if status = .waiting then [] else [.waiting] := by
  unfold settle
  split
  · rw [List.append_nil]
  · exact shown_announce cx label kind .waiting

theorem shown_cancel (task : Option Nat) : (cx.cancel task).shown id = cx.shown id := by
  cases task <;> rfl

end Shown

theorem shown_of_amid {cx cx' : Context H} {ids : List Nat} {id : Nat} (member : id ∈ ids)
    (same : cx'.amid ids = cx.amid ids) : cx'.shown id = cx.shown id :=
  congrArg (List.filterMap Event.status?) (about_of_amid member same)

def withJournal (cx : Context H) (journal : List Event) : Context H :=
  { cx with journal }

/-- What happened since the journal held `past` is in front of it, and was done by nodes with these
ids. -/
structure Writes (ids : List Nat) (start : Agenda) (past past' : List Event) (cx cx' : Context H) :
    Prop where
  grows : start.Grows cx.agenda
  adds : ∃ new, (∀ event ∈ new, event.node ∈ ids) ∧ cx.journal = new ++ past ∧
    cx' = cx.withJournal (new ++ past')

end Context

section Writing

variable {ids : List Nat} {start : Agenda} {past past' : List Event} {cx cx' : Context H}
  {label : Label}

open Context

namespace Context.Writes

theorem record (writes : Writes ids start past past' cx cx') (event : Event)
    (named : event.node ∈ ids) :
    Writes ids start past past' (cx.record event) (cx'.record event) := by
  obtain ⟨new, own, journal, rfl⟩ := writes.adds
  refine ⟨writes.grows, event :: new, List.forall_mem_cons.mpr ⟨named, own⟩, ?_, rfl⟩
  rw [Context.record, journal, List.cons_append]

theorem silent (writes : Writes ids start past past' cx cx') (step : Context H → Context H)
    (keeps : (step cx).journal = cx.journal)
    (blind : ∀ journal, step (cx.withJournal journal) = (step cx).withJournal journal)
    (grows : cx.agenda.Grows (step cx).agenda) :
    Writes ids start past past' (step cx) (step cx') := by
  obtain ⟨new, own, journal, rfl⟩ := writes.adds
  exact ⟨writes.grows.trans grows, new, own, keeps.trans journal, blind _⟩

theorem announce (writes : Writes ids start past past' cx cx') (named : label.id ∈ ids)
    (kind : NodeKind) (status : Status) :
    Writes ids start past past' (cx.announce label kind status) (cx'.announce label kind status) :=
  writes.record _ named

theorem cancel (writes : Writes ids start past past' cx cx') (task : Option Nat) :
    Writes ids start past past' (cx.cancel task) (cx'.cancel task) := by
  cases task with
  | none => exact writes
  | some task =>
    exact writes.silent (fun cx => cx.cancel (some task)) rfl (fun _ => rfl) (.cancel _ task)

theorem setScene (writes : Writes ids start past past' cx cx') (scene : Scene H.Target) :
    Writes ids start past past' { cx with scene } { cx' with scene } :=
  writes.silent (fun cx => { cx with scene }) rfl (fun _ => rfl) (.refl _)

theorem same_scene (writes : Writes ids start past past' cx cx') : cx'.scene = cx.scene := by
  obtain ⟨new, _, _, rfl⟩ := writes.adds
  rfl

theorem act (writes : Writes ids start past past' cx cx') (named : label.id ∈ ids) (phase : Phase)
    (unit : H.Action) :
    (cx.act label phase unit).answer = (cx'.act label phase unit).answer ∧
      (cx.act label phase unit).unit = (cx'.act label phase unit).unit ∧
      Writes ids start past past' (cx.act label phase unit).cx (cx'.act label phase unit).cx := by
  unfold Context.act
  rw [writes.same_scene]
  exact ⟨rfl, rfl, (writes.record (.called label.id (.act phase _)) named).setScene _⟩

theorem poll (writes : Writes ids start past past' cx cx') (named : label.id ∈ ids)
    (unit : H.Condition) :
    (cx.poll label unit).answer = (cx'.poll label unit).answer ∧
      (cx.poll label unit).unit = (cx'.poll label unit).unit ∧
      Writes ids start past past' (cx.poll label unit).cx (cx'.poll label unit).cx := by
  unfold Context.poll
  rw [writes.same_scene]
  exact ⟨rfl, rfl, (writes.record (.called label.id (.poll _)) named).setScene _⟩

end Context.Writes

/-- Two runs that differ in the past of their journals only. -/
def Bridge.journaling (H : Host) (ids : List Nat) (start : Agenda) (past past' : List Event) :
    Bridge H H where
  named label := label.id ∈ ids
  contexts := Writes ids start past past'
  gates := Eq
  conditions := Eq
  actions := Eq
  faces := Eq

theorem journaling_step (named : label.id ∈ ids) (phase : Phase) (status : Status)
    (unit : H.Action) (writes : Writes ids start past past' cx cx') (task : Option Nat) :
    (stepAction label phase status unit task cx).Matches
      (Bridge.journaling H ids start past past') (stepAction label phase status unit task cx') := by
  obtain ⟨answer, same, called⟩ := writes.act named phase unit
  unfold stepAction
  dsimp only
  rw [← answer, ← same]
  split
  · exact ⟨rfl, rfl, rfl, called, rfl⟩
  · exact ⟨rfl, rfl, rfl, (called.cancel task).announce named .actionNode _, rfl⟩
  · exact ⟨rfl, rfl, rfl, (called.cancel task).announce named .actionNode .warning, rfl⟩

theorem journaling_sound (H : Host) (ids : List Nat) (start : Agenda) (past past' : List Event) :
    (Bridge.journaling H ids start past past').Sound where
  running := by rintro _ _ rfl; rfl
  waiting := by rintro _ _ rfl; rfl
  idle := rfl
  active := rfl
  announce named writes kind status := writes.announce named kind status
  everyTick := by
    rintro label cx cx' _ writes
    refine ⟨?_, writes.silent (fun cx => (cx.everyTick label).2) rfl (fun _ => rfl)
      (.everyTick _ label.id)⟩
    obtain ⟨new, _, _, rfl⟩ := writes.adds
    rfl
  after := by
    rintro label cx cx' _ writes delay
    refine ⟨?_, writes.silent (fun cx => (cx.after label delay).2) rfl (fun _ => rfl)
      (.after _ label.id delay)⟩
    obtain ⟨new, _, _, rfl⟩ := writes.adds
    rfl
  cancel writes task := writes.cancel task
  draw := by
    rintro cx cx' writes
    refine ⟨?_, writes.silent (fun cx => cx.draw.2) rfl (fun _ => rfl) (.refl _)⟩
    obtain ⟨new, _, _, rfl⟩ := writes.adds
    rfl
  poll := by
    rintro label unit _ cx cx' named rfl writes
    exact writes.poll named unit
  ask := by
    rintro label unit _ cx cx' named rfl writes
    obtain ⟨answer, same, polled⟩ := (writes.announce named .conditionNode .running).poll named unit
    unfold runCondition
    dsimp only
    rw [← answer, ← same]
    split
    · exact ⟨rfl, rfl, rfl, polled.announce named .conditionNode _⟩
    · exact ⟨rfl, rfl, rfl, polled.announce named .conditionNode .warning⟩
  step := by
    rintro label phase status _ unit _ cx cx' named _ rfl rfl writes task
    exact journaling_step named phase status unit writes task
  halt := by
    rintro label unit _ cx cx' named rfl writes
    exact (writes.act named .stop unit).2

end Writing

section Selves

variable {ids : List Nat} {start : Agenda} {past past' : List Event}

theorem journaling_reflects (H : Host) (ids : List Nat) (start : Agenda)
    (past past' : List Event) : (Bridge.journaling H ids start past past').Reflects :=
  ⟨fun _ => rfl, fun _ => rfl, fun _ => rfl, fun _ => rfl⟩

mutual

theorem eq_of_matches : {tree : Tree H} → {live live' : Live H tree} →
    live.Matches (.journaling H ids start past past') live' → live' = live
  | _, .relay _ _, .relay _ _, .relay _ status _ below => congrArg _ (eq_of_matches below)
  | _, .repeater _ _ _, .repeater _ _ _, .repeater _ _ _ below => congrArg _ (eq_of_matches below)
  | _, .loop _ _ _, .loop _ _ _, .loop _ _ _ _ below => congrArg _ (eq_of_matches below)
  | _, .gate _ _ _ _ _, .gate _ _ _ _ _, .gate _ _ _ _ _ _ rfl below =>
    congrArg _ (eq_of_matches below)
  | _, .ordered _ _, .ordered _ _, .ordered _ _ _ below => congrArg _ (eq_of_matches_all below)
  | _, .weighted _ _ _, .weighted _ _ _, .weighted _ _ _ _ below =>
    congrArg _ (eq_of_matches_all below)
  | _, .parallel _ _ _, .parallel _ _ _, .parallel _ _ before beside =>
    congrArg₂ _ (eq_of_matches before) (eq_of_matches beside)
  | _, .condition _ _, .condition _ _, .condition _ rfl rfl => rfl
  | _, .action _ _ _, .action _ _ _, .action _ _ rfl rfl => rfl

theorem eq_of_matches_all : {trees : Forest H} → {lives lives' : LiveForest H trees} →
    lives.Matches (.journaling H ids start past past') lives' → lives' = lives
  | _, .nil, .nil, .nil => rfl
  | _, .cons _ _, .cons _ _, .cons here after =>
    congrArg₂ _ (eq_of_matches here) (eq_of_matches_all after)

end

end Selves

section Visits

theorem visit_matches {H' : Host} {bridge : Bridge H H'} (sound : bridge.Sound) {tree : Tree H}
    {tree' : Tree H'} {live : Live H tree} {live' : Live H' tree'}
    (alike : live.Matches bridge live') {cx : Context H} {cx' : Context H'}
    (contexts : bridge.contexts cx cx') (summons : Summons) :
    (live.visit cx summons).Matches bridge (Live.Matches bridge) (live'.visit cx' summons) := by
  cases summons with
  | evaluate => exact evaluate_matches sound alike contexts
  | resume wake => exact resume_matches sound wake alike contexts
  | stop =>
    have stopped := stop_matches sound alike contexts
    exact ⟨stopped.live, stopped.cx, rfl⟩

variable {tree : Tree H} (live : Live H tree) (cx : Context H) (summons : Summons)

/-- The journal grows by what nodes of the tree do. Over another journal the call does the same. -/
theorem visit_writes (past : List Event) :
    let turn := live.visit cx summons
    cx.agenda.Grows turn.cx.agenda ∧
      ∃ new, (∀ event ∈ new, event.node ∈ tree.labels.map Label.id) ∧
        turn.cx.journal = new ++ cx.journal ∧
        live.visit (cx.withJournal past) summons =
          ⟨turn.live, turn.cx.withJournal (new ++ past), turn.report⟩ := by
  intro turn
  have sound := journaling_sound H (tree.labels.map Label.id) cx.agenda cx.journal past
  have writes : Context.Writes (tree.labels.map Label.id) cx.agenda cx.journal past cx
      (cx.withJournal past) := ⟨.refl _, [], nofun, rfl, rfl⟩
  -- the call beside itself: what corresponds to the state it leaves is that state
  have alike := matches_self (journaling_reflects H _ cx.agenda cx.journal past) live
    fun _ member => List.mem_map_of_mem member
  have ran := visit_matches sound alike writes summons
  obtain ⟨grows, new, own, journal, other⟩ := ran.cx
  refine ⟨grows, new, own, journal, ?_⟩
  rw [← other, ← eq_of_matches ran.live, ran.report]

theorem visit_grows : cx.agenda.Grows (live.visit cx summons).cx.agenda :=
  (visit_writes live cx summons []).1

theorem visit_nextId : cx.agenda.nextId ≤ (live.visit cx summons).cx.agenda.nextId :=
  (visit_grows live cx summons).nextId

theorem visit_told (id : Nat) : ∃ more,
    (live.visit cx summons).cx.about id = cx.about id ++ more ∧
      (id ∉ tree.labels.map Label.id → more = []) := by
  obtain ⟨_, new, own, journal, _⟩ := visit_writes live cx summons []
  refine ⟨(new.filter (·.node = id)).reverse, ?_, ?_⟩
  · simp only [Context.about, Context.events, journal, List.filter_reverse, List.filter_append,
      List.reverse_append]
  · intro outside
    rw [List.reverse_eq_nil_iff, List.filter_eq_nil_iff]
    intro event member same
    exact outside (of_decide_eq_true same ▸ own event member)

theorem visit_about {id : Nat} (outside : id ∉ tree.labels.map Label.id) :
    (live.visit cx summons).cx.about id = cx.about id := by
  obtain ⟨more, told, none⟩ := visit_told live cx summons id
  rw [told, none outside, List.append_nil]

theorem visit_shown {id : Nat} (outside : id ∉ tree.labels.map Label.id) :
    (live.visit cx summons).cx.shown id = cx.shown id :=
  congrArg (List.filterMap Event.status?) (visit_about live cx summons outside)

theorem visit_amid {ids : List Nat} (outside : ∀ id ∈ tree.labels.map Label.id, id ∉ ids) :
    (live.visit cx summons).cx.amid ids = cx.amid ids := by
  obtain ⟨_, new, own, journal, _⟩ := visit_writes live cx summons []
  have silent : new.filter (·.node ∈ ids) = [] := by
    apply List.filter_eq_nil_iff.mpr
    intro event member
    simpa using outside _ (own event member)
  simp only [Context.amid, Context.events, journal, List.filter_reverse, List.filter_append, silent,
    List.nil_append]

end Visits

end ReactiveTree
