import ReactiveTree.Proofs.Rhythm

/-!
Repeaters of children that end at once. Such a child holds no task between two calls, so no wake of
the agenda ever finds it, and only its repeater calls it: once when the repeater is activated, and
once in every tick from then on, whatever else the tick wakes. The task for the next activation is
replaced in each tick, and the new one waits for the tick after.
-/

namespace ReactiveTree

variable {H : Host}

/-- In whatever state calls have left it, the node ends at once when it is activated, and registers
no task. -/
def Tree.Prompt (tree : Tree H) : Prop :=
  ∀ (live : Live H tree) (cx : Context H), live.Reachable →
    let turn := evaluate tree live cx
    turn.report.terminal?.isSome ∧ turn.cx.agenda.nextId = cx.agenda.nextId

def Agenda.Gave (agenda : Agenda) (task? : Option Nat) : Prop :=
  ∀ task, task? = some task → task < agenda.nextId

section Given

variable {label : Label} {child : Tree H} {cx : Context H}

theorem gave_none (agenda : Agenda) : agenda.Gave none := nofun

theorem gave_last (agenda : Agenda) (node : Nat) (trigger : Trigger) :
    (agenda.register node trigger).2.Gave (some (agenda.register node trigger).1) := by
  rintro _ ⟨⟩
  exact Nat.lt_succ_self _

theorem rearm_gave (mode : PollMode) (period : Nat) (halts : Bool) :
    (rearm label mode period halts cx).2.agenda.Gave (rearm label mode period halts cx).1 := by
  unfold rearm
  split
  · exact gave_none _
  · exact gave_last _ _ _

theorem pollGate_gave (mode : PollMode) (period : Nat) (status : Status) (unit : H.Condition)
    (last : Status) (kid : Live H child) :
    let polled := pollGate label mode period (evaluate child) (stop child) status unit last kid cx
    polled.cx.agenda.Gave polled.timer := by
  match answer : (cx.poll label unit).answer with
  | none =>
    rw [pollGate_faulted answer]
    exact gave_none _
  | some true =>
    by_cases succeeded : last = .success
    · rw [pollGate_content answer succeeded]
      exact rearm_gave mode period _
    · rw [pollGate_opens answer succeeded]
      exact rearm_gave mode period _
  | some false =>
    by_cases failed : last = .failure
    · rw [pollGate_closed answer failed]
      exact rearm_gave mode period _
    · rw [pollGate_closes answer failed]
      exact rearm_gave mode period _

theorem evaluate_gave {tree : Tree H} (live : Live H tree) (cx : Context H)
    (idle : ¬ live.isRunning) :
    (evaluate tree live cx).cx.agenda.Gave (evaluate tree live cx).live.task? := by
  cases live with
  | relay | ordered | weighted | parallel | condition =>
    rw [task?_eq_none rfl]
    exact gave_none _
  | repeater status deferred kid =>
    rw [evaluate, if_neg (show ¬ status.isRunning from idle)]
    unfold repeatChild
    dsimp only
    split
    · exact gave_last _ _ _
    · exact gave_none _
  | loop status timer kid =>
    rw [evaluate, if_neg (show ¬ status.isRunning from idle)]
    exact gave_last _ _ _
  | gate status unit timer last kid =>
    rw [evaluate, if_neg (show ¬ status.isRunning from idle)]
    exact pollGate_gave _ _ .running unit .running kid
  | action status unit task =>
    rw [evaluate, if_neg (show ¬ status.isRunning from idle)]
    unfold startAction
    dsimp only
    split
    · split
      · exact gave_last _ _ _
      · rw [stepAction_idle]
        exact gave_none _
    · rw [stepAction_idle]
      exact gave_none _

end Given

section Unheld

variable {tree : Tree H} {live : Live H tree}

theorem unheld_iff : live.handles = [] ↔ ∀ part ∈ live.parts, part.live.task? = none := by
  rw [handles_eq, List.flatMap_eq_nil_iff]
  refine forall₂_congr fun part _ => ?_
  unfold Part.holds
  cases part.live.task? <;> simp [Label.holds]

/-- The part holds no task but one that was registered since the numbers of tasks stood at the
floor. -/
def Part.Takes (floor : Nat) (part : Part H) (cx : Context H) : Prop :=
  floor ≤ cx.agenda.nextId ∧ Recent floor part.live.task? ∧ cx.agenda.Gave part.live.task?

theorem takes_follows (floor id : Nat) : Follows id [id] (Part.Takes (H := H) floor) where
  quiet := by
    rintro part cx cx' ⟨began, recent, gave⟩ _ grows
    exact ⟨Nat.le_trans began grows.nextId, recent,
      fun task held => Nat.lt_of_lt_of_le (gave task held) grows.nextId⟩
  activate := by
    rintro tree live cx _ _ ⟨began, kept⟩
    by_cases running : live.isRunning
    · rw [evaluate_of_running live cx running]
      exact ⟨began, kept⟩
    · exact ⟨Nat.le_trans began (visit_nextId live cx .evaluate),
        fun task held => Nat.le_trans began (evaluate_recent live cx running task held),
        evaluate_gave live cx running⟩
  halt := by
    rintro tree live cx _ _ ⟨began, _⟩
    have gone : (stop tree live cx).live.task? = none := stop_task live cx
    refine ⟨Nat.le_trans began (visit_nextId live cx .stop), recent_none gone, ?_⟩
    rw [gone]
    exact gave_none _

theorem evaluate_takes (numbered : tree.Numbered) (unheld : live.handles = []) (cx : Context H) :
    ∀ part ∈ (evaluate tree live cx).live.parts,
      part.Takes cx.agenda.nextId (evaluate tree live cx).cx := by
  intro part member
  have named : part.tree.id ∈ tree.labels.map Label.id := by
    rw [← parts_ids (evaluate tree live cx).live]
    exact List.mem_map_of_mem member
  let found : Session H tree := ⟨live, cx⟩
  have empty : found.Tracks part.tree.id (Part.Takes cx.agenda.nextId) := by
    refine Session.tracks_of_forall numbered.distinct named fun other there _ => ?_
    rw [Part.Takes, unheld_iff.mp unheld other there]
    exact ⟨Nat.le_refl _, recent_none rfl, gave_none _⟩
  exact (Session.evaluate_tracks (clears_singleton _ tree) (takes_follows _ _) empty).of_mem member
    rfl

end Unheld

section Prompt

variable {child : Tree H} (prompt : child.Prompt) {kid : Live H child} (reached : kid.Reachable)

include prompt reached

theorem prompt_idle (cx : Context H) : ¬ kid.isRunning := by
  intro running
  have ended := (prompt kid cx reached).1
  rw [evaluate_of_running kid cx running] at ended
  cases ended

theorem prompt_unheld (numbered : child.Numbered) : kid.handles = [] := by
  induction reached with
  | fresh => exact initial_handles child
  | @activated kid cx reached ih =>
    apply unheld_iff.mpr
    intro part member
    obtain ⟨_, recent, gave⟩ := evaluate_takes numbered ih cx part member
    apply Option.eq_none_iff_forall_ne_some.mpr
    intro task held
    have given := gave task held
    rw [(prompt kid cx reached).2] at given
    exact Nat.not_lt.mpr (recent task held) given
  | woken wake cx _ ih =>
    rw [resume_unheld wake child _ cx ih]
    exact ih
  | stopped cx _ _ => exact stop_handles child _ cx

theorem repeatChild_prompt (label : Label) (deferred : Option Nat) (cx : Context H) :
    let turn := evaluate child kid cx
    repeatChild label (evaluate child) deferred kid cx =
      ⟨some (turn.cx.everyTick label).1, turn.live, (turn.cx.everyTick label).2⟩ := by
  obtain ⟨verdict, ended⟩ := Option.isSome_iff_exists.mp (prompt kid cx reached).1
  unfold repeatChild
  simp only [ended]

end Prompt

/-- The calls of a node since it was in the state `first`, the oldest first, with what became of the
node. In between anything may happen that is not done by the nodes with the ids. -/
inductive Since (ids : List Nat) {tree : Tree H} (first : Live H tree) (origin : Context H) :
    List (Visit H tree) → Live H tree → Context H → Prop
  | now : Since ids first origin [] first origin
  | aside {visits : List (Visit H tree)} {live : Live H tree} {cx cx' : Context H}
      (since : Since ids first origin visits live cx) (same : cx'.amid ids = cx.amid ids)
      (grows : cx.agenda.nextId ≤ cx'.agenda.nextId) : Since ids first origin visits live cx'
  | visit {visits : List (Visit H tree)} {live : Live H tree} {cx : Context H}
      (since : Since ids first origin visits live cx) (summons : Summons) :
      Since ids first origin (visits ++ [⟨summons, live, cx⟩]) (live.visit cx summons).live
        (live.visit cx summons).cx

section Lives

variable {ids : List Nat} {tree : Tree H} {first live : Live H tree} {origin cx : Context H}
  {past visits : List (Visit H tree)}

theorem Since.shown {id : Nat} (since : Since ids first origin visits live cx) (own : id ∈ ids)
    (outside : id ∉ tree.labels.map Label.id) : cx.shown id = origin.shown id := by
  induction since with
  | now => rfl
  | aside _ same _ ih => exact (Context.shown_of_amid own same).trans ih
  | @visit _ live cx _ summons ih => exact (visit_shown live cx summons outside).trans ih

theorem Since.life (since : Since ids first origin visits live cx) (own : tree.id ∈ ids)
    (born : Life past first origin) : Life (past ++ visits) live cx := by
  induction since with
  | now => rwa [List.append_nil]
  | aside _ same grows ih => exact .aside ih (Context.about_of_amid own same) grows
  | visit _ summons ih =>
    rw [← List.append_assoc]
    exact .visit ih summons

theorem Life.reachable (life : Life past live cx) : live.Reachable := by
  induction life with
  | born => exact .fresh
  | aside _ _ _ ih => exact ih
  | visit _ summons ih =>
    cases summons with
    | evaluate => exact .activated _ ih
    | resume wake => exact .woken wake _ ih
    | stop => exact .stopped _ ih

end Lives

/-- A repeater counts the activations of its child, and tells observers that it runs before the
first of them only. -/
def Rhythm.ofRepeater : Rhythm Nat where
  first _ := 1
  next _ laps := laps + 1
  loud := false

section Repeating

variable {label : Label} {child : Tree H}

abbrev repeaterIds (label : Label) (child : Tree H) : List Nat :=
  (Tree.repeater label child).labels.map Label.id

/-- A repeater rests, or has called its child a number of times since it told that it runs, and
activated it each time. -/
inductive Repeating : Live H (.repeater label child) → Context H → Option Nat → Prop
  | rests {past : List (Visit H child)} {kid : Live H child} {cx : Context H}
      (life : Life past kid cx) : Repeating (.repeater .waiting none kid) cx none
  | runs {task : Nat} {past visits : List (Visit H child)} {first kid : Live H child}
      {found cx : Context H} (life : Life past first (found.announce label .repeater .running))
      (since : Since (repeaterIds label child) first (found.announce label .repeater .running)
        visits kid cx)
      (activates : ∀ visit ∈ visits, visit.Activates) :
      Repeating (.repeater .running (some task) kid) cx (some visits.length)

section Laps

variable {status : Status} {deferred : Option Nat} {first kid : Live H child}
  {found cx cx' : Context H} {past visits : List (Visit H child)} {laps : Option Nat}

theorem child_mem_ids : child.id ∈ repeaterIds label child :=
  List.mem_cons_of_mem _ (id_mem_labels child)

theorem Repeating.aside {live : Live H (.repeater label child)}
    (repeating : Repeating live cx laps)
    (same : cx'.amid (repeaterIds label child) = cx.amid (repeaterIds label child))
    (grows : cx.agenda.nextId ≤ cx'.agenda.nextId) : Repeating live cx' laps := by
  cases repeating with
  | rests life => exact .rests (.aside life (Context.about_of_amid child_mem_ids same) grows)
  | runs life since activates => exact .runs life (.aside since same grows) activates

theorem Repeating.life
    (repeating :
      Repeating (.repeater status deferred kid : Live H (.repeater label child)) cx laps) :
    ∃ past, Life past kid cx := by
  cases repeating with
  | rests life => exact ⟨_, life⟩
  | runs life since => exact ⟨_, since.life child_mem_ids life⟩

variable (prompt : child.Prompt) (reached : kid.Reachable)
  (life : Life past first (found.announce label .repeater .running))
  (since : Since (repeaterIds label child) first (found.announce label .repeater .running) visits
    kid cx)
  (activates : ∀ visit ∈ visits, visit.Activates) (deferred : Option Nat)

include prompt reached

include life since activates in
theorem repeatChild_repeating :
    let turn := repeatChild label (evaluate child) deferred kid cx
    Repeating (.repeater .running turn.deferred turn.kid : Live H (.repeater label child)) turn.cx
      (some (visits.length + 1)) := by
  rw [repeatChild_prompt prompt reached]
  have called := Since.visit since .evaluate
  have deferred : Since (repeaterIds label child) first _ _ _
      ((evaluate child kid cx).cx.everyTick label).2 := .aside called rfl (Nat.le_succ _)
  rw [← List.length_singleton, ← List.length_append]
  exact .runs life deferred (List.forall_mem_append.mpr
    ⟨activates, List.forall_mem_singleton.mpr ⟨rfl, prompt_idle prompt reached cx⟩⟩)

theorem repeatChild_renews :
    Recent cx.agenda.nextId (repeatChild label (evaluate child) deferred kid cx).deferred := by
  rw [repeatChild_prompt prompt reached]
  exact recent_some (visit_nextId kid cx .evaluate)

end Laps

variable (apart : label.id ∉ child.labels.map Label.id)

include apart

theorem repeatChild_shown (kid : Live H child) (deferred : Option Nat) (cx : Context H) :
    (repeatChild label (evaluate child) deferred kid cx).cx.shown label.id = cx.shown label.id := by
  unfold repeatChild
  dsimp only
  split <;> exact visit_shown kid cx .evaluate apart

theorem announce_about (cx : Context H) (status : Status) :
    (cx.announce label .repeater status).about child.id = cx.about child.id := by
  have other : label.id ≠ child.id := fun same => apart (same ▸ id_mem_labels child)
  simp [Context.about, Context.announce, Context.events_record, Event.node, other]

theorem settle_about (cx : Context H) (status : Status) :
    (cx.settle label .repeater status).about child.id = cx.about child.id := by
  unfold Context.settle
  split
  · rfl
  · exact announce_about apart cx .waiting

theorem repeater_stopped (status : Status) (deferred : Option Nat) (kid : Live H child)
    (cx : Context H) :
    (stop (.repeater label child) (.repeater status deferred kid) cx).cx.shown label.id =
      cx.shown label.id ++ if status = .waiting then [] else [.waiting] := by
  have quiet := (visit_shown kid (cx.cancel deferred) .stop apart).trans
    (cx.shown_cancel label.id deferred)
  have settled := (stop child kid (cx.cancel deferred)).cx.shown_settle label .repeater status
  exact settled.trans (congrArg (· ++ _) quiet)

/-- A repeater reports to its parent what it tells observers, unless it is stopped. -/
theorem repeater_reports (visit : Visit H (.repeater label child)) :
    visit.turn.report = visit.told.filter Status.isReported := by
  obtain ⟨summons, live, cx⟩ := visit
  cases live with | repeater status deferred kid
  let visit : Visit H (.repeater label child) := ⟨summons, .repeater status deferred kid, cx⟩
  have reports {after : Turn H (Live H (.repeater label child))} {told : Report}
      (ran : visit.turn = after) (shown : after.cx.shown label.id = cx.shown label.id ++ told)
      (said : after.report = told.filter Status.isReported) :
      visit.turn.report = visit.told.filter Status.isReported := by
    subst ran
    rw [said, Visit.told_eq shown]
  have silent {live : Live H (.repeater label child)} {cx' : Context H}
      (ran : visit.turn = ⟨live, cx', []⟩) (same : cx'.shown label.id = cx.shown label.id) :
      visit.turn.report = visit.told.filter Status.isReported :=
    reports ran (same.trans (List.append_nil _).symm) rfl
  have freed := cx.shown_cancel label.id deferred
  cases summons with
  | evaluate =>
    have ran : visit.turn = evaluate (.repeater label child) (.repeater status deferred kid) cx :=
      rfl
    rw [evaluate] at ran
    split at ran
    · exact silent ran rfl
    · exact reports ran ((repeatChild_shown apart kid none _).trans
        ((Context.shown_announce _ label .repeater .running).trans
          (congrArg (· ++ [Status.running]) freed))) rfl
  | resume wake =>
    have ran : visit.turn =
        resume wake (.repeater label child) (.repeater status deferred kid) cx := rfl
    have heard := visit_shown kid cx (.resume wake) apart
    rw [resume] at ran
    split at ran
    · split at ran
      · exact silent ran ((repeatChild_shown apart kid none _).trans freed)
      · exact silent ran rfl
    · split at ran
      · dsimp only at ran
        split at ran
        · exact silent ran ((repeatChild_shown apart _ deferred _).trans heard)
        · exact silent ran heard
      · exact silent ran rfl
  | stop =>
    refine reports rfl (repeater_stopped apart status deferred kid cx) ?_
    split <;> rfl

variable (numbered : child.Numbered) (prompt : child.Prompt)

include numbered prompt

theorem repeater_rules : @Rhythm.Rules H Nat .ofRepeater (.repeater label child)
    (repeaterIds label child) Repeating where
  quiet repeating same grows := repeating.aside same grows.nextId
  advance _ repeating := repeating.aside rfl (Nat.le_refl _)
  rests := by
    rintro live cx ⟨_⟩
    exact ⟨rfl, nofun⟩
  runs := by
    rintro live cx laps ⟨_⟩
    rfl
  begins := by
    rintro live cx repeating
    cases repeating with | @rests past kid _ life =>
    have opened : Life past kid (cx.announce label .repeater .running) :=
      .aside life (announce_about apart cx .running) (Nat.le_refl _)
    exact ⟨repeatChild_repeating prompt life.reachable opened .now (List.forall_mem_nil _) none,
      (repeatChild_shown apart kid none _).trans (cx.shown_announce label .repeater .running)⟩
  beats := by
    rintro live cx laps task repeating held
    cases repeating with | @runs owned _ visits first kid _ _ life since activates =>
    have ran : resume ⟨label.id, task⟩ (.repeater label child)
        (.repeater .running (some owned) kid) cx =
          let turn := repeatChild label (evaluate child) none kid (cx.cancel (some owned))
          ⟨.repeater .running turn.deferred turn.kid, turn.cx, []⟩ := by
      rw [resume, if_pos rfl]
      exact if_pos held
    intro turn
    rw [show turn = _ from ran]
    have freed : Since (repeaterIds label child) first _ visits kid (cx.cancel (some owned)) :=
      .aside since rfl (Nat.le_refl _)
    have reached := (since.life child_mem_ids life).reachable
    exact ⟨repeatChild_repeating prompt reached life freed activates none,
      (repeatChild_shown apart kid none _).trans (List.append_nil _).symm,
      repeatChild_renews prompt reached none⟩
  misses := by
    rintro (_ | ⟨status, deferred, kid⟩) cx laps wake repeating other turn
    have ran : turn = resume wake (.repeater label child) (.repeater status deferred kid) cx := rfl
    obtain ⟨_, life⟩ := repeating.life
    rw [resume, resume_unheld wake child kid cx
      (prompt_unheld prompt life.reachable numbered)] at ran
    split at ran
    · rw [if_neg (show deferred ≠ some wake.task from other ‹_›)] at ran
      rw [ran]
      exact ⟨repeating, rfl, rfl⟩
    · -- a child that holds nothing has nothing to say to the wake
      split at ran <;> rw [ran] <;> exact ⟨repeating, rfl, rfl⟩
  stops := by
    rintro (_ | ⟨status, deferred, kid⟩) cx laps repeating
    obtain ⟨past, life⟩ := repeating.life
    have freed : Life past kid (cx.cancel deferred) := by
      cases deferred with
      | none => exact life
      | some => exact .aside life rfl (Nat.le_refl _)
    have same := (stop child kid (cx.cancel deferred)).cx.settle_agenda label .repeater status
    refine ⟨.rests (.aside (.visit freed .stop) (settle_about apart _ status)
      (Nat.le_of_eq (congrArg Agenda.nextId same.symm))),
      (repeater_stopped apart status deferred kid cx).trans (congrArg (_ ++ ·) ?_)⟩
    cases repeating <;> rfl

end Repeating

def Command.isTick : Command H → Bool
  | .tick _ => true
  | _ => false

namespace Session

variable {tree : Tree H} {session : Session H tree} {label : Label} {child : Tree H}
  {held : Option Nat}

theorem falls_tick (reckoned : session.Reckoned) {before : Option Nat}
    (placed : session.Placed (@Repeating H label child) held before) (command : Command H) :
    session.Falls label.id held command (before.isSome && command.isTick) := by
  obtain ⟨live, member, rfl, repeating⟩ := placed.part
  cases repeating with
  | rests => cases command <;> first | rfl | nofun
  | @runs task =>
    cases command with
    | tick delta =>
      refine ⟨task, rfl, due_mem reckoned.shares delta ?_⟩
      rw [handles_eq]
      exact List.mem_flatMap.mpr ⟨_, member, List.mem_singleton_self _⟩
    | _ => rfl

section Running

variable (numbered : tree.Numbered) (node : Tree.repeater label child ∈ tree.nodes)
  (prompt : child.Prompt) (reckoned : session.Reckoned)

include numbered node prompt reckoned

theorem run_repeating {laps : Nat}
    (placed : session.Placed (@Repeating H label child) held (some laps))
    (commands : List (Command H))
    (goes : ∀ told ∈ session.tellings label.id commands, .waiting ∉ told) :
    (∀ told ∈ session.tellings label.id commands, told = []) ∧
      ∃ task, (session.run commands).Placed (@Repeating H label child) task
        (some (laps + commands.countP Command.isTick)) := by
  obtain ⟨first, below⟩ := numbered_of_mem numbered node
  have rules := repeater_rules (fun member => Nat.lt_irrefl _ (first _ member)) below prompt
  induction commands generalizing session laps held with
  | nil => exact ⟨nofun, held, placed⟩
  | cons command rest ih =>
    obtain ⟨_, task, after, kept, turns⟩ := perform_placed rules (id_mem_labels _) numbered
      (clears_of_mem tree numbered node) reckoned placed (falls_tick reckoned placed command)
    obtain ⟨quiet, goes⟩ := List.forall_mem_cons.mp goes
    obtain ⟨told, rfl⟩ := turns.of_undisturbed quiet
    obtain ⟨later, ends⟩ := ih (run_reckoned numbered [command] reckoned) kept goes
    refine ⟨List.forall_mem_cons.mpr ⟨told.trans (ite_self _), later⟩, ?_⟩
    have count : laps + (command :: rest).countP Command.isTick =
        (if command.isTick then laps + 1 else laps) + rest.countP Command.isTick := by
      rw [List.countP_cons]
      split <;> omega
    rw [count]
    exact ends

theorem lap_pending {laps : Nat}
    (placed : session.Placed (@Repeating H label child) held (some laps)) :
    ∃ (task : Nat) (first kid : Live H child) (found : Context H)
      (past visits : List (Visit H child)),
      ⟨.repeater label child, .repeater .running (some task) kid⟩ ∈ session.live.parts ∧
        session.cx.agenda.tasksFor label.id = [⟨task, label.id, .everyTick⟩] ∧
        Life past first (found.announce label .repeater .running) ∧
        Since (repeaterIds label child) first (found.announce label .repeater .running) visits kid
          session.cx ∧
        visits.length = laps ∧ ∀ visit ∈ visits, visit.Activates := by
  obtain ⟨_, below⟩ := numbered_of_mem numbered node
  obtain ⟨live, member, rfl, repeating⟩ := placed.part
  -- only tasks below the repeater could make it forget one
  have kept (handle : Handle) (forgotten : handle.Forgotten tree) : handle.node ≠ label.id := by
    intro own
    obtain ⟨live, reached, _, _, there, busy⟩ :=
      forgotten_busy numbered.distinct node forgotten own
    have calm := reached.children _ there
    cases live with | repeater _ _ kid
    cases List.mem_singleton.mp there
    exact busy (prompt_unheld prompt calm below)
  cases repeating with | @runs task past visits first kid found _ life since activates
  obtain ⟨⟨id, owner, trigger⟩, only, own, rfl, tick⟩ := reckoned.task_pending numbered.distinct
    member kept (Option.some_ne_none _)
  obtain rfl : task = id := Option.some.inj own
  obtain rfl : trigger = .everyTick := by
    cases trigger with
    | everyTick => rfl
    | deadline => cases tick
  exact ⟨task, first, kid, found, past, visits, member, only, life, since, rfl, activates⟩

end Running

end Session

/-- From its activation on, a repeater that is not stopped runs and tells and reports nothing more,
if its child always ends at once and registers no task. In that time its child was called once more
than there were ticks, and activated each time; and between two calls the agenda keeps one task for
the repeater, which falls due in the next tick. -/
theorem repeater_repeats_every_tick {sources : Build.Sources H} {graph : Graph} {built : Built H}
    (ok : build sources graph = .ok built) (scene : Scene H.Target) (sampler : H.Sampler)
    {label : Label} {child : Tree H} (node : Tree.repeater label child ∈ built.tree.nodes)
    (prompt : child.Prompt) (before : List (Command H)) (opening : Command H)
    (after : List (Command H)) :
    let found := (Session.start built.tree scene sampler).run before
    let opened := found.perform opening
    let session := opened.run after
    ∀ early, found.tells label.id opening = early ++ [.running] →
      (∀ told ∈ opened.tellings label.id after, .waiting ∉ told) →
      early.getLast? ≠ some .running ∧
      (∀ told ∈ opened.tellings label.id after, told = []) ∧
      (∀ visit : Visit H (.repeater label child),
        visit.turn.report = visit.told.filter Status.isReported) ∧
      ∃ task, ∃ kid : Live H child,
        ⟨.repeater label child, .repeater .running (some task) kid⟩ ∈ session.live.parts ∧
        session.cx.agenda.tasksFor label.id = [⟨task, label.id, .everyTick⟩] ∧
        ∃ (first : Live H child) (cx : Context H) (past visits : List (Visit H child)),
          let begun := cx.announce label .repeater .running
          begun.shown label.id = opened.cx.shown label.id ∧ Life past first begun ∧
          Since (repeaterIds label child) first begun visits kid session.cx ∧
          visits.length = after.countP Command.isTick + 1 ∧ ∀ visit ∈ visits, visit.Activates := by
  intro found opened session early opens goes
  have numbered := (build_consecutive ok).1.numbered
  obtain ⟨first, below⟩ := numbered_of_mem numbered node
  have outside : label.id ∉ child.labels.map Label.id :=
    fun member => Nat.lt_irrefl _ (first _ member)
  obtain ⟨apart, reckoned, task, _, running, stands⟩ := Session.run_opens
    (repeater_rules outside below prompt) (id_mem_labels _) numbered
    (clears_of_mem built.tree numbered node)
    (fun reckoned placed command => ⟨_, Session.falls_tick reckoned placed command⟩) node
    (.rests (.born rfl)) before opening opens
  -- its beats are silent, so a repeater that told last that it runs was activated in this call
  obtain rfl : _ = 1 := stands.resolve_right nofun
  obtain ⟨silent, task, kept⟩ := Session.run_repeating numbered node prompt reckoned running after
    goes
  have settled : session.Reckoned := Session.run_reckoned numbered after reckoned
  obtain ⟨task, first, kid, cx, past, visits, member, only, life, since, laps, activates⟩ :=
    Session.lap_pending numbered node prompt settled kept
  refine ⟨apart, silent, repeater_reports outside, task, kid, member, only, first, cx, past, visits,
    ?_, life, since, laps.trans (Nat.add_comm _ _), activates⟩
  have quiet : session.cx.shown label.id = opened.cx.shown label.id ++ _ :=
    Session.run_shown label.id after
  rw [List.flatten_eq_nil_iff.mpr silent, List.append_nil] at quiet
  exact (since.shown List.mem_cons_self outside).symm.trans quiet

section Conditions

variable {label : Label} {unit : H.Condition}

theorem condition_of_kind {tree : Tree H} (asks : tree.kind = .conditionNode) :
    ∃ label unit, tree = .condition label unit := by
  cases tree with
  | condition label unit => exact ⟨label, unit, rfl⟩
  | relay role => cases role <;> cases asks
  | ordered order => cases order <;> cases asks
  | _ => cases asks

theorem runCondition_ends (unit : H.Condition) (cx : Context H) :
    (runCondition label unit cx).answer.2.terminal?.isSome := by
  unfold runCondition
  dsimp only
  split
  · rename_i verdict _
    cases verdict <;> rfl
  · rfl

theorem condition_prompt : (Tree.condition label unit).Prompt := by
  intro live cx reached
  have still := condition_idle reached
  cases live with | condition status unit
  have idle : status ≠ .running := still
  rw [evaluate, if_neg (not_isRunning idle)]
  exact ⟨runCondition_ends unit cx,
    congrArg Agenda.nextId (runCondition_agenda label unit cx)⟩

end Conditions

def Rehearsal.survey : Graph where
  nodes := [
    { kind := "Root", id := "root", children := ["again"], params := {} },
    { kind := "Repeater", id := "again", children := ["look"], params := {} },
    { kind := "ConditionNode", id := "look", params := {
        unit := some "Script", inputs := [.literal "look", .literal "tfe"] } }]

theorem survey_goes_on : ∃ built, build rehearsed Rehearsal.survey = .ok built ∧
    let opened := built.fresh.perform .evaluate
    let session := opened.run [.tick 0, .tick 9]
    built.fresh.tells 1 .evaluate = [.running] ∧
      (∀ told ∈ opened.tellings 1 [.tick 0, .tick 9], told = []) ∧
      ∃ task, session.cx.agenda.tasksFor 1 = [⟨task, 1, .everyTick⟩] ∧
        ∃ (label : Label) (unit : Rehearsal.Condition)
          (first kid : Live Rehearsal (.condition label unit)) (begun : Context Rehearsal)
          (visits : List (Visit Rehearsal (.condition label unit))),
          Since [1, 2] first begun visits kid session.cx ∧ visits.length = 3 := by
  have repeats : ((build rehearsed Rehearsal.survey).toOption.map fun built =>
      built.tree.nodes.any fun node => node.repeats ∧ node.id = 1 ∧
        ∀ child ∈ node.children, child.id = 2 ∧ child.kind = .conditionNode) = some true := by
    decide +kernel
  have course : ((build rehearsed Rehearsal.survey).toOption.map fun built =>
      decide (built.fresh.tells 1 .evaluate = [.running] ∧
        ∀ told ∈ (built.fresh.perform .evaluate).tellings 1 [.tick 0, .tick 9],
          .waiting ∉ told)) = some true := by decide +kernel
  cases ok : build rehearsed Rehearsal.survey with
  | error _ => rw [ok] at repeats; cases repeats
  | ok built =>
    rw [ok] at repeats course
    obtain ⟨node, member, facts⟩ := List.any_eq_true.mp (Option.some.inj repeats)
    obtain ⟨begins, goes⟩ := of_decide_eq_true (Option.some.inj course)
    obtain ⟨repeats, own, below⟩ := of_decide_eq_true facts
    refine ⟨built, rfl, begins, ?_⟩
    cases node with
    | repeater label child =>
      obtain ⟨look, asks⟩ := below child List.mem_cons_self
      obtain ⟨inner, unit, rfl⟩ := condition_of_kind asks
      have own : label.id = 1 := own
      have ids : repeaterIds label (.condition inner unit) = [label.id, 2] := by
        rw [← look]
        rfl
      rw [← own] at begins goes ⊢
      have kept := repeater_repeats_every_tick ok ⟨⟨[]⟩, built.blackboard⟩ (Sampler.ofSeed 0) member
        condition_prompt [] .evaluate [.tick 0, .tick 9] [] begins goes
      obtain ⟨_, silent, _, task, kid, _, only, first, _, _, visits, _, _, since, laps, _⟩ := kept
      rw [ids] at since
      exact ⟨silent, task, only, inner, unit, first, kid, _, visits, since, laps⟩
    | _ => cases repeats

end ReactiveTree
