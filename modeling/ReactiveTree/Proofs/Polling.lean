import ReactiveTree.Proofs.Gatekeeping
import ReactiveTree.Proofs.Pending

/-!
When a gate polls. It polls when it is activated, and after that only when its timer falls due;
every poll sets the timer anew unless the polling has ended. What ends it is said by the mode of the
gate, and once it has ended nothing but the next activation sets the timer again.
-/

namespace ReactiveTree

variable {H : Host}

def Event.answer? : Event → Option (Option Bool)
  | .called _ (.poll answer) => some answer
  | _ => none

/-- What the polls of a node were answered, in order. A poll that faulted has no answer. -/
def Context.answers (cx : Context H) (id : Nat) : List (Option Bool) :=
  (cx.about id).filterMap Event.answer?

def Visit.answers {tree : Tree H} (visit : Visit H tree) : List (Option Bool) :=
  (visit.turn.cx.answers tree.id).drop (visit.cx.answers tree.id).length

/-- What a gate hears and reports in a call ends the polling until the next activation. -/
def PollMode.EndedBy (mode : PollMode) (answers : List (Option Bool)) (report : Report) : Prop :=
  none ∈ answers ∨
    match mode with
    | .once => answers ≠ []
    | .whenTrue => some true ∈ answers
    | .trueToFalse => .failure ∈ report
    | .both => False

def Visit.EndsPolling {tree : Tree H} (mode : PollMode) (visit : Visit H tree) : Prop :=
  visit.summons = .stop ∨ mode.EndedBy visit.answers visit.turn.report

section Answers

variable (cx : Context H) (label : Label) (id : Nat)

theorem answers_record (event : Event) : (cx.record event).answers id =
    cx.answers id ++ (if event.node = id then event.answer? else none).toList := by
  unfold Context.answers Context.about
  rw [Context.events_record, List.filter_append, List.filterMap_append]
  by_cases own : event.node = id
  · cases said : event.answer? <;> simp [own, said]
  · simp [own]

theorem answers_announce (kind : NodeKind) (status : Status) :
    (cx.announce label kind status).answers id = cx.answers id := by
  rw [Context.announce, answers_record]
  simp only [Event.answer?, ite_self, Option.toList_none, List.append_nil]

theorem answers_announceAll (kind : NodeKind) (report : Report) :
    (cx.announceAll label kind report).answers id = cx.answers id := by
  induction report generalizing cx with
  | nil => rfl
  | cons status report ih => exact (ih _).trans (answers_announce cx label id kind status)

theorem answers_settle (kind : NodeKind) (status : Status) :
    (cx.settle label kind status).answers id = cx.answers id := by
  unfold Context.settle
  split
  · rfl
  · exact answers_announce cx label id kind .waiting

theorem answers_cancel (task : Option Nat) : (cx.cancel task).answers id = cx.answers id := by
  cases task <;> rfl

theorem answers_rearm (mode : PollMode) (period : Nat) (halts : Bool) :
    (rearm label mode period halts cx).2.answers id = cx.answers id := by
  unfold rearm
  split <;> rfl

theorem answers_poll (unit : H.Condition) : (cx.poll label unit).cx.answers label.id =
    cx.answers label.id ++ [(cx.poll label unit).answer] := by
  refine (answers_record cx label.id _).trans ?_
  simp [Event.node, Event.answer?, Context.poll]

variable {id} in
theorem visit_answers {tree : Tree H} (live : Live H tree) (summons : Summons)
    (outside : id ∉ tree.labels.map Label.id) :
    (live.visit cx summons).cx.answers id = cx.answers id :=
  congrArg (List.filterMap Event.answer?) (visit_about live cx summons outside)

end Answers

/-- A gate that polls once does not wait for another poll; one that polls until its condition holds
has failed as long as it waits, and nothing below it holds a task. -/
def Live.Shut : {tree : Tree H} → Live H tree → Prop
  | .gate _ _ mode _ _, .gate _ _ timer last kid =>
    (mode = .once → timer = none) ∧
      (mode = .whenTrue → timer ≠ none → last = .failure ∧ kid.handles = [])
  | _, _ => True

section Poll

variable {label : Label} {mode : PollMode} {period : Nat} {child : Tree H} {status : Status}
  {unit : H.Condition} {last : Status} {kid : Live H child} {cx : Context H}

theorem rearm_armed {halts : Bool} :
    (rearm label mode period halts cx).1 ≠ none ↔ halts = false ∧ mode ≠ .once := by
  unfold rearm
  cases halts <;> by_cases once : mode = .once <;> simp [once]

theorem pollGate_answers (apart : label.id ∉ child.labels.map Label.id) :
    (pollGate label mode period (evaluate child) (stop child) status unit last kid
      cx).cx.answers label.id = cx.answers label.id ++ [(cx.poll label unit).answer] := by
  have polled := answers_poll cx label unit
  have active (cx : Context H) := visit_answers cx kid .evaluate apart
  have halted (cx : Context H) := visit_answers cx kid .stop apart
  match answer : (cx.poll label unit).answer with
  | none =>
    rw [pollGate_faulted answer, ← answer, ← polled]
    exact (answers_announce _ label label.id _ _).trans (halted _)
  | some true =>
    by_cases succeeded : last = .success
    · rw [pollGate_content answer succeeded, ← answer, ← polled]
      exact answers_rearm _ label label.id mode period false
    · rw [pollGate_opens answer succeeded, ← answer, ← polled]
      dsimp only
      rw [answers_rearm, answers_announceAll]
      exact (active _).trans (answers_announce _ label label.id _ _)
  | some false =>
    by_cases failed : last = .failure
    · rw [pollGate_closed answer failed, ← answer, ← polled]
      exact answers_rearm _ label label.id mode period false
    · rw [pollGate_closes answer failed, ← answer, ← polled]
      dsimp only
      rw [answers_rearm]
      exact (halted _).trans (answers_announce _ label label.id _ _)

theorem pollGate_armed (news : mode = .whenTrue → last ≠ .success) :
    let polled := pollGate label mode period (evaluate child) (stop child) status unit last kid cx
    polled.timer ≠ none ↔ ¬ mode.EndedBy [(cx.poll label unit).answer] polled.report := by
  match answer : (cx.poll label unit).answer with
  | none =>
    rw [pollGate_faulted answer]
    simp [PollMode.EndedBy]
  | some true =>
    by_cases succeeded : last = .success
    · rw [pollGate_content answer succeeded]
      dsimp only
      rw [rearm_armed]
      cases mode with
      -- polling would go on after a poll that held, but then the gate did not wait for one
      | whenTrue => exact absurd succeeded (news rfl)
      | _ => simp [PollMode.EndedBy]
    · rw [pollGate_opens answer succeeded]
      dsimp only
      rw [rearm_armed]
      cases mode <;> simp [PollMode.EndedBy, PollMode.haltsOn, PollMode.haltsHolding]
  | some false =>
    by_cases failed : last = .failure
    · rw [pollGate_closed answer failed]
      dsimp only
      rw [rearm_armed]
      cases mode <;> simp [PollMode.EndedBy]
    · rw [pollGate_closes answer failed]
      dsimp only
      rw [rearm_armed]
      cases mode <;> simp [PollMode.EndedBy]

/-- A gate that polls until its condition holds waits on only after a poll that failed, which stops
the child. -/
theorem pollGate_shut {bound : H.Condition} (news : mode = .whenTrue → last ≠ .success)
    (still : mode = .whenTrue → last = .failure → kid.handles = []) :
    let polled := pollGate label mode period (evaluate child) (stop child) status unit last kid cx
    (Live.gate polled.status polled.unit polled.timer polled.last polled.kid :
      Live H (.gate label bound mode period child)).Shut := by
  intro polled
  have armed : polled.timer ≠ none ↔ _ := pollGate_armed news
  constructor
  · rintro rfl
    by_contra waits
    exact armed.mp waits (.inr (List.cons_ne_nil _ _))
  · rintro rfl waits
    have goesOn := armed.mp waits
    match answer : (cx.poll label unit).answer with
    | none => exact absurd (.inl (List.mem_singleton.mpr answer.symm)) goesOn
    | some true => exact absurd (.inr (List.mem_singleton.mpr answer.symm)) goesOn
    | some false =>
      by_cases failed : last = .failure
      · have same : polled = _ := pollGate_closed answer failed
        rw [same]
        exact ⟨failed, still rfl failed⟩
      · have same : polled = _ := pollGate_closes answer failed
        rw [same]
        exact ⟨rfl, stop_handles child kid _⟩

end Poll

/-- What a call of a gate does to its polling. `waited` says that the timer may run before. -/
structure Visit.Polls {tree : Tree H} (mode : PollMode) (waited : Prop) (visit : Visit H tree) :
    Prop where
  heard : visit.answers = [] ∨ waited ∧ ∃ answer, visit.answers = [answer]
  armed : visit.turn.live.task? ≠ none ↔ waited ∧ ¬ visit.EndsPolling mode
  shut : visit.turn.live.Shut

section Calls

variable {label : Label} {bound : H.Condition} {mode : PollMode} {period : Nat} {child : Tree H}

def GateTurn.turn (polled : GateTurn H (Live H child)) :
    Turn H (Live H (.gate label bound mode period child)) :=
  ⟨.gate polled.status polled.unit polled.timer polled.last polled.kid, polled.cx, polled.report⟩

variable {visit : Visit H (.gate label bound mode period child)}

theorem polls_of_pollGate {status : Status} {unit : H.Condition} {last : Status}
    {kid : Live H child} {cx : Context H} {waited : Prop}
    (ran : visit.turn = (pollGate label mode period (evaluate child) (stop child) status unit last
      kid cx).turn)
    (apart : label.id ∉ child.labels.map Label.id)
    (same : cx.answers label.id = visit.cx.answers label.id) (may : waited)
    (runs : visit.summons ≠ .stop) (news : mode = .whenTrue → last ≠ .success)
    (still : mode = .whenTrue → last = .failure → kid.handles = []) :
    visit.Polls mode waited ∧ ∃ answer, visit.answers = [answer] := by
  have heard : visit.answers = [(cx.poll label unit).answer] := by
    have told : visit.turn.cx.answers label.id = _ :=
      (congrArg (fun turn => turn.cx.answers label.id) ran).trans (pollGate_answers apart)
    rw [same] at told
    exact (congrArg (List.drop _) told).trans List.drop_left
  refine ⟨⟨.inr ⟨may, _, heard⟩, ?_, ?_⟩, _, heard⟩
  · rw [Visit.EndsPolling, heard, ran]
    have armed : (pollGate label mode period (evaluate child) (stop child) status unit last kid
        cx).timer ≠ none ↔ _ := pollGate_armed news
    exact armed.trans
      ⟨fun open_ => ⟨may, not_or.mpr ⟨runs, open_⟩⟩, fun both => (not_or.mp both.2).2⟩
  · rw [ran]
    exact pollGate_shut news still

theorem polls_of_silent {waited : Prop}
    (same : visit.turn.cx.answers label.id = visit.cx.answers label.id)
    (armed : visit.turn.live.task? ≠ none ↔ waited ∧ visit.summons ≠ .stop ∧
      (mode = .trueToFalse → .failure ∉ visit.turn.report))
    (shut : visit.turn.live.Shut) : visit.Polls mode waited := by
  have heard : visit.answers = [] :=
    (congrArg (List.drop _) same).trans (List.drop_length)
  refine ⟨.inl heard, armed.trans ?_, shut⟩
  rw [Visit.EndsPolling, heard]
  cases mode <;> simp [PollMode.EndedBy]

theorem activation_polls (apart : label.id ∉ child.labels.map Label.id) (active : visit.Activates) :
    visit.Polls mode True ∧ ∃ answer, visit.answers = [answer] := by
  obtain ⟨summons, live, cx⟩ := visit
  obtain ⟨rfl, idle⟩ := active
  cases live with | gate status unit timer last kid
  let visit : Visit H (.gate label bound mode period child) :=
    ⟨.evaluate, .gate status unit timer last kid, cx⟩
  have ran : visit.turn = (pollGate label mode period (evaluate child) (stop child) .running unit
      .running kid ((cx.cancel timer).announce label .loopConditionNode .running)).turn :=
    if_neg idle
  refine polls_of_pollGate ran apart ?_ trivial (by rintro ⟨⟩) (fun _ => by decide)
    (by rintro _ ⟨⟩)
  rw [answers_announce, answers_cancel]

theorem unheard_polls (ran : visit.turn = ⟨visit.live, visit.cx, []⟩) (goes : visit.summons ≠ .stop)
    (shut : visit.live.Shut) : visit.Polls mode (visit.live.task? ≠ none) := by
  refine polls_of_silent ?_ ?_ ?_
  · rw [ran]
  · rw [ran]
    simp [goes]
  · rwa [ran]

/-- A gate hears what becomes of its child, and gives up its timer for it in one mode. -/
theorem child_polls {wake : Wake} {status : Status} {unit : H.Condition} {timer : Option Nat}
    {last : Status} {kid : Live H child} {cx : Context H}
    (apart : label.id ∉ child.labels.map Label.id) (other : wake.node ≠ label.id)
    (covered : child.covers wake.node) (once : mode = .once → timer = none)
    (whenTrue : mode = .whenTrue → timer ≠ none → last = .failure ∧ kid.handles = []) :
    let visit : Visit H (.gate label bound mode period child) :=
      ⟨.resume wake, .gate status unit timer last kid, cx⟩
    visit.Polls mode (timer ≠ none) := by
  intro visit
  let turn := resume wake child kid cx
  let heard := turn.report.filter Status.isReported
  let told := turn.cx.announceAll label .loopConditionNode heard
  have ran : visit.turn =
      if mode.haltsOn heard then
        ⟨.gate (heard.getLastD status) unit none (heard.getLastD last) turn.live,
          told.cancel timer, heard⟩
      else ⟨.gate (heard.getLastD status) unit timer (heard.getLastD last) turn.live, told,
          heard⟩ := by
    unfold Visit.turn Live.visit
    dsimp only [visit]
    rw [resume, if_neg other, if_pos covered]
  have same : told.answers label.id = cx.answers label.id := by
    rw [answers_announceAll]
    exact visit_answers cx kid (.resume wake) apart
  by_cases halts : mode.haltsOn heard
  · rw [if_pos halts] at ran
    refine polls_of_silent ?_ ?_ ?_
    · rw [ran]
      exact (answers_cancel told label.id timer).trans same
    · rw [ran]
      obtain ⟨ends, failed⟩ : mode = .trueToFalse ∧ .failure ∈ heard := by
        simpa [PollMode.haltsOn] using halts
      exact iff_of_false (absurd rfl) fun goes => goes.2.2 ends failed
    · rw [ran]
      exact ⟨fun _ => rfl, fun _ waits => absurd rfl waits⟩
  · rw [if_neg halts] at ran
    refine polls_of_silent ?_ ?_ ?_
    · rw [ran]
      exact same
    · rw [ran]
      refine ⟨fun waits => ⟨waits, by rintro ⟨⟩, fun ends failed => halts ?_⟩, And.left⟩
      simpa [PollMode.haltsOn, ends] using failed
    · rw [ran]
      refine ⟨once, fun ends waits => ?_⟩
      -- the child holds no task, so the wake finds nobody there
      obtain ⟨failed, unheld⟩ := whenTrue ends waits
      have unheard : turn = ⟨kid, cx, []⟩ := resume_unheld wake child kid cx unheld
      simp only [heard, unheard]
      exact ⟨failed, unheld⟩

theorem other_polls (apart : label.id ∉ child.labels.map Label.id) (shut : visit.live.Shut)
    (idle : ¬ visit.Activates) : visit.Polls mode (visit.live.task? ≠ none) := by
  obtain ⟨summons, live, cx⟩ := visit
  cases summons with
  | evaluate =>
    have runs : live.isRunning := by
      by_contra still
      exact idle ⟨rfl, still⟩
    exact unheard_polls (evaluate_of_running live cx runs) (by rintro ⟨⟩) shut
  | stop =>
    cases live with | gate status unit timer last kid
    refine polls_of_silent ?_ ?_ ?_
    · refine (answers_settle _ label label.id .loopConditionNode status).trans ?_
      exact (visit_answers (cx.cancel timer) kid .stop apart).trans
        (answers_cancel cx label.id timer)
    · exact iff_of_false (absurd rfl) fun goes => goes.2.1 rfl
    · exact ⟨fun _ => rfl, fun _ waits => absurd rfl waits⟩
  | resume wake =>
    cases live with | gate status unit timer last kid
    let visit : Visit H (.gate label bound mode period child) :=
      ⟨.resume wake, .gate status unit timer last kid, cx⟩
    have ran : visit.turn = resume wake (.gate label bound mode period child)
      (.gate status unit timer last kid) cx := rfl
    rw [resume] at ran
    by_cases own : wake.node = label.id
    · rw [if_pos own] at ran
      by_cases held : timer = some wake.task
      · rw [if_pos held] at ran
        have waits : timer ≠ none := by
          rw [held]
          exact Option.some_ne_none _
        refine (polls_of_pollGate ran apart rfl waits (by rintro ⟨⟩) ?_ ?_).1
        · intro ends succeeded
          exact absurd (succeeded.symm.trans (shut.2 ends waits).1) (by decide)
        · exact fun ends _ => (shut.2 ends waits).2
      · rw [if_neg held] at ran
        exact unheard_polls ran (by rintro ⟨⟩) shut
    · by_cases covered : child.covers wake.node
      · exact child_polls apart own covered shut.1 shut.2
      · rw [if_neg own, if_neg covered] at ran
        exact unheard_polls ran (by rintro ⟨⟩) shut

end Calls

section Lives

variable {tree : Tree H} {visits before after rest : List (Visit H tree)} {live : Live H tree}
  {cx : Context H}

theorem Life.found (life : Life visits live cx) {visit : Visit H tree}
    (split : visits = before ++ visit :: after) : Life before visit.live visit.cx := by
  induction life generalizing after with
  | born => exact absurd split (List.append_ne_nil_of_right_ne_nil _ (List.cons_ne_nil _ _)).symm
  | aside _ _ _ ih => exact ih split
  | visit life summons ih =>
    rcases List.eq_nil_or_concat' after with rfl | ⟨front, last, rfl⟩
    · obtain ⟨rfl, last⟩ := List.append_inj' split rfl
      obtain rfl := List.head_eq_of_cons_eq last
      exact life
    · rw [← List.cons_append, ← List.append_assoc] at split
      exact ih (List.append_inj' split rfl).1

theorem Life.answers (life : Life visits live cx) :
    cx.answers tree.id = visits.flatMap Visit.answers :=
  life.heard Event.answer?

end Lives

section Spells

variable {label : Label} {bound : H.Condition} {mode : PollMode} {period : Nat} {child : Tree H}
  {visits before rest : List (Visit H (.gate label bound mode period child))}
  {opening : Visit H (.gate label bound mode period child)}
  {gate : Live H (.gate label bound mode period child)} {cx : Context H}

theorem call_shut (apart : label.id ∉ child.labels.map Label.id)
    {visit : Visit H (.gate label bound mode period child)} (shut : visit.live.Shut) :
    visit.turn.live.Shut := by
  by_cases active : visit.Activates
  · exact (activation_polls apart active).1.shut
  · exact (other_polls apart shut active).shut

theorem Life.shut (apart : label.id ∉ child.labels.map Label.id) (life : Life visits gate cx) :
    gate.Shut := by
  induction life with
  | born => exact ⟨fun _ => rfl, fun _ waits => absurd rfl waits⟩
  | aside _ _ _ ih => exact ih
  | @visit _ live cx _ summons ih => exact @call_shut _ _ _ _ _ _ apart ⟨summons, live, cx⟩ ih

/-- From one activation to the next the timer of a gate runs until something ends the polling. -/
theorem Life.armed (apart : label.id ∉ child.labels.map Label.id) (life : Life visits gate cx)
    (split : visits = before ++ opening :: rest) (opens : opening.Activates)
    (goes : ∀ visit ∈ rest, ¬ visit.Activates) :
    gate.task? ≠ none ↔ ∀ visit ∈ opening :: rest, ¬ visit.EndsPolling mode := by
  induction life generalizing rest with
  | born => exact absurd split (List.append_ne_nil_of_right_ne_nil _ (List.cons_ne_nil _ _)).symm
  | aside _ _ _ ih => exact ih split goes
  | @visit visits live cx life summons ih =>
    -- the call at the end is the activation itself or one of those after it
    rcases List.eq_nil_or_concat' rest with rfl | ⟨front, last, rfl⟩
    · obtain ⟨_, same⟩ := List.append_inj' split rfl
      obtain rfl := List.head_eq_of_cons_eq same
      rw [List.forall_mem_singleton]
      exact (activation_polls apart opens).1.armed.trans ⟨And.right, fun ends => ⟨trivial, ends⟩⟩
    · rw [← List.cons_append, ← List.append_assoc] at split
      obtain ⟨earlier, same⟩ := List.append_inj' split rfl
      obtain rfl := List.head_eq_of_cons_eq same
      obtain ⟨goes, other⟩ := List.forall_mem_append.mp goes
      have idle : ¬ Visit.Activates ⟨summons, live, cx⟩ := other _ (List.mem_singleton_self _)
      have polls : Visit.Polls mode _ ⟨summons, live, cx⟩ :=
        other_polls apart (life.shut apart) idle
      rw [← List.cons_append, List.forall_mem_append, List.forall_mem_singleton, ← ih earlier goes]
      exact polls.armed

theorem ended_before {α : Type} {opening last later : α} {rest front between back : List α}
    (cut : opening :: rest = front ++ last :: (between ++ later :: back)) :
    ∃ middle, rest = middle ++ later :: back ∧ last ∈ opening :: middle := by
  cases front with
  | nil =>
    obtain ⟨rfl, rfl⟩ := List.cons_eq_cons.mp cut
    exact ⟨between, rfl, List.mem_cons_self⟩
  | cons first front =>
    obtain ⟨rfl, rfl⟩ := List.cons_eq_cons.mp cut
    refine ⟨front ++ last :: between, by simp, ?_⟩
    exact List.mem_cons_of_mem _ (List.mem_append_right _ List.mem_cons_self)

theorem Life.silent (apart : label.id ∉ child.labels.map Label.id) (life : Life visits gate cx)
    (opens : opening.Activates) (goes : ∀ visit ∈ rest, ¬ visit.Activates)
    {more front back : List (Visit H (.gate label bound mode period child))}
    {last : Visit H (.gate label bound mode period child)}
    (split : visits = before ++ (opening :: rest ++ more))
    (cut : opening :: rest = front ++ last :: back) (ends : last.EndsPolling mode) :
    ∀ later ∈ back, later.answers = [] := by
  intro later member
  obtain ⟨between, tail, rfl⟩ := List.append_of_mem member
  obtain ⟨middle, rfl, earlier⟩ := ended_before cut
  obtain ⟨goes, others⟩ := List.forall_mem_append.mp goes
  have whole : visits = (before ++ opening :: middle) ++ later :: (tail ++ more) := by
    rw [split]
    simp
  -- the timer does not run when the gate is called here, and no timer is set but by an activation
  have found := life.found whole
  have rests : ¬ later.live.task? ≠ none := by
    intro waits
    exact (found.armed apart rfl opens goes).mp waits last earlier ends
  have polls := other_polls apart (found.shut apart) (others later List.mem_cons_self)
  exact polls.heard.resolve_right fun waited => rests waited.1

theorem Life.polls_once (apart : label.id ∉ child.labels.map Label.id) (life : Life visits gate cx)
    {visit : Visit H (.gate label bound mode period child)} (member : visit ∈ visits) :
    visit.answers.length ≤ 1 ∧ (visit.Activates → visit.answers.length = 1) := by
  obtain ⟨front, back, split⟩ := List.append_of_mem member
  by_cases active : visit.Activates
  · obtain ⟨answer, heard⟩ := (activation_polls apart active).2
    rw [heard]
    exact ⟨Nat.le_refl _, fun _ => rfl⟩
  · refine ⟨?_, fun opens => absurd opens active⟩
    rcases (other_polls apart ((life.found split).shut apart) active).heard with
      silent | ⟨_, answer, heard⟩
    · rw [silent]
      exact Nat.zero_le _
    · rw [heard]
      exact Nat.le_refl _

/-- What the mode of a gate says of the calls from an activation on, the oldest first. -/
structure PollMode.Governs (mode : PollMode) {tree : Tree H} (calls : List (Visit H tree)) :
    Prop where
  single : ∀ call ∈ calls, call.answers.length ≤ 1
  once : mode = .once → (calls.flatMap Visit.answers).length = 1
  whenTrue : mode = .whenTrue → ∀ front call back, calls = front ++ call :: back →
    some true ∈ call.answers → ∀ later ∈ back, later.answers = []
  trueToFalse : mode = .trueToFalse → ∀ front call back, calls = front ++ call :: back →
    .failure ∈ call.turn.report → ∀ later ∈ back, later.answers = []
  halted : ∀ front call back, calls = front ++ call :: back →
    none ∈ call.answers ∨ call.summons = .stop → ∀ later ∈ back, later.answers = []

theorem Life.governed (apart : label.id ∉ child.labels.map Label.id) (life : Life visits gate cx)
    {more : List (Visit H (.gate label bound mode period child))}
    (split : visits = before ++ (opening :: rest ++ more)) (opens : opening.Activates)
    (goes : ∀ visit ∈ rest, ¬ visit.Activates) : mode.Governs (opening :: rest) where
  single := by
    intro call member
    refine (life.polls_once apart ?_).1
    rw [split]
    exact List.mem_append_right _ (List.mem_append_left _ member)
  once := by
    rintro rfl
    have active : opening.answers.length = 1 := by
      refine (life.polls_once apart ?_).2 opens
      rw [split]
      exact List.mem_append_right _ List.mem_cons_self
    have heard : opening.answers ≠ [] := List.ne_nil_of_length_eq_add_one active
    have silent : ∀ later ∈ rest, later.answers = [] :=
      life.silent apart opens goes split (List.nil_append _).symm (.inr (.inr heard))
    rw [List.flatMap_cons, List.flatMap_eq_nil_iff.mpr silent, List.append_nil, active]
  whenTrue := by
    rintro rfl front call back cut held
    exact life.silent apart opens goes split cut (.inr (.inr held))
  trueToFalse := by
    rintro rfl front call back cut failed
    exact life.silent apart opens goes split cut (.inr (.inr failed))
  halted := by
    rintro front call back cut (faulted | stopped)
    · exact life.silent apart opens goes split cut (.inr (.inl faulted))
    · exact life.silent apart opens goes split cut (.inl stopped)

end Spells

section Timers

variable {tree : Tree H} {session : Session H tree} {due : List Wake} {lost : List Handle}
  {label : Label} {bound : H.Condition} {mode : PollMode} {period : Nat} {child : Tree H}
  {gate : Live H (.gate label bound mode period child)}

theorem one_poll_pending (accounted : session.Accounted due lost)
    (distinct : (tree.labels.map Label.id).Nodup)
    (kept : ∀ handle ∈ lost, handle.node ≠ label.id)
    (node : Tree.gate label bound mode period child ∈ tree.nodes) :
    (session.cx.agenda.tasksFor label.id).length ≤ 1 := by
  rw [← parts_trees session.live] at node
  obtain ⟨⟨_, gate⟩, member, rfl⟩ := List.mem_map.mp node
  have same := (accounted.tasksFor distinct member kept).length_eq
  rw [List.length_map] at same
  calc (session.cx.agenda.tasksFor label.id).length
    _ = _ := same
    _ ≤ (label.holds true gate.task?).length := List.length_filter_le _ _
    _ ≤ 1 := by
      unfold Label.holds
      split
      · exact Nat.zero_le 1
      · exact Nat.le_refl 1

theorem poll_pending (accounted : session.Accounted [] lost)
    (distinct : (tree.labels.map Label.id).Nodup)
    (kept : ∀ handle ∈ lost, handle.node ≠ label.id)
    (member : ⟨_, gate⟩ ∈ session.live.parts) (waits : gate.task? ≠ none) :
    ∃ task, session.cx.agenda.tasksFor label.id = [task] ∧ gate.task? = some task.id := by
  obtain ⟨task, only, held, _⟩ := accounted.task_pending distinct member kept waits
  exact ⟨task, only, held⟩

end Timers

/-- In a run of a tree, the calls of each gate are such that from one activation to the next its
mode governs when it polls. A gate that polls for ever waits for the next poll after every call of
the run, unless a poll faulted or the gate was stopped since it was activated. At no time, be it
between the wakes of a batch, are two polls of a gate pending. -/
theorem gate_polls_by_mode {tree : Tree H} (numbered : tree.Numbered) (scene : Scene H.Target)
    (sampler : H.Sampler) (commands : List (Command H)) {label : Label} {bound : H.Condition}
    {mode : PollMode} {period : Nat} {child : Tree H}
    (gate : Live H (.gate label bound mode period child)) :
    let session := (Session.start tree scene sampler).run commands
    ⟨_, gate⟩ ∈ session.live.parts →
      (∃ visits : List (Visit H (.gate label bound mode period child)),
        Life visits gate session.cx ∧
        session.cx.answers label.id = visits.flatMap Visit.answers ∧
        (∀ before opening rest more, visits = before ++ (opening :: rest ++ more) →
          opening.Activates → (∀ visit ∈ rest, ¬ visit.Activates) →
          mode.Governs (opening :: rest)) ∧
        (mode = .both → ∀ before opening rest, visits = before ++ opening :: rest →
          opening.Activates → (∀ visit ∈ rest, ¬ visit.Activates) →
          (∀ visit ∈ opening :: rest, none ∉ visit.answers ∧ visit.summons ≠ .stop) →
          ∃ task, session.cx.agenda.tasksFor label.id = [task] ∧ gate.task? = some task.id)) ∧
      (session.cx.agenda.tasksFor label.id).length ≤ 1 ∧
      ∀ delta front back, (session.advance delta).1 = front ++ back →
        let amid := (Session.dispatch Session.wake front (session.advance delta).2).1
        (amid.cx.agenda.tasksFor label.id).length ≤ 1 := by
  intro session member
  have node : Tree.gate label bound mode period child ∈ tree.nodes := by
    rw [← parts_trees session.live]
    exact List.mem_map_of_mem member
  have distinct := numbered.distinct
  let fresh := Session.start tree scene sampler
  have accounted : session.Accounted [] (fresh.orphans commands ++ []) :=
    Session.run_accounted numbered commands (Session.start_accounted scene sampler)
  rw [List.append_nil] at accounted
  have reached : fresh.live.Reachable := .fresh
  have kept : ∀ handle ∈ fresh.orphans commands, handle.node ≠ label.id := fun handle there =>
    forgotten_apart distinct node (Session.orphans_forgotten reached commands handle there) rfl
  refine ⟨?_, one_poll_pending accounted distinct kept node, ?_⟩
  · have apart : label.id ∉ child.labels.map Label.id := by
      have below := numbered_of_mem numbered node
      exact fun member => Nat.lt_irrefl _ (below.1 _ member)
    obtain ⟨visits, life⟩ := Session.run_lives numbered scene sampler commands _ member
    refine ⟨visits, life, life.answers, ?_, ?_⟩
    · intro before opening rest more split opens goes
      exact life.governed apart split opens goes
    · rintro rfl before opening rest split opens goes undisturbed
      apply poll_pending accounted distinct kept member
      apply (life.armed apart split opens goes).mpr
      rintro visit there (stopped | faulted | never)
      · exact (undisturbed visit there).2 stopped
      · exact (undisturbed visit there).1 faulted
      · exact never
  · intro delta front back batch amid
    have advanced : (session.advance delta).2.Accounted (front ++ back) _ :=
      batch ▸ Balanced.advance accounted delta
    refine one_poll_pending (Session.dispatch_accounted numbered advanced) distinct ?_ node
    intro handle overwritten
    rcases List.mem_append.mp overwritten with now | before
    · have advanced : (session.advance delta).2.live.Reachable :=
        Session.run_reachable commands reached
      exact forgotten_apart distinct node
        (Session.dispatchOrphans_forgotten advanced front handle now) rfl
    · exact kept handle before

theorem vigil_keeps_polling : ∃ built, build rehearsed Rehearsal.vigil = .ok built ∧
    let session := built.fresh.run [.evaluate, .tick 0, .tick 0]
    ∃ (label : Label) (bound : Rehearsal.Condition) (period : Nat) (child : Tree Rehearsal)
      (gate : Live Rehearsal (.gate label bound .both period child)),
      ⟨_, gate⟩ ∈ session.live.parts ∧
      (∃ visits : List (Visit Rehearsal (.gate label bound .both period child)),
        Life visits gate session.cx ∧
        visits.flatMap Visit.answers = [some false, some true, some false]) ∧
      (session.cx.agenda.tasksFor label.id).length ≤ 1 := by
  have polls : ((build rehearsed Rehearsal.vigil).toOption.map fun built =>
      let session := built.fresh.run [.evaluate, .tick 0, .tick 0]
      session.live.parts.any fun part => match part with
        | ⟨.gate label _ .both _ _, _⟩ =>
          session.cx.answers label.id = [some false, some true, some false]
        | _ => false) = some true := by decide +kernel
  cases ok : build rehearsed Rehearsal.vigil with
  | error _ => rw [ok] at polls; cases polls
  | ok built =>
    rw [ok] at polls
    obtain ⟨part, member, facts⟩ := List.any_eq_true.mp (Option.some.inj polls)
    refine ⟨built, rfl, ?_⟩
    split at facts
    · rename_i label bound period child gate
      obtain ⟨⟨visits, life, heard, _⟩, single, _⟩ := gate_polls_by_mode
        (build_consecutive ok).1.numbered ⟨⟨[]⟩, built.blackboard⟩ (Sampler.ofSeed 0)
        [.evaluate, .tick 0, .tick 0] gate member
      exact ⟨label, bound, period, child, gate, member,
        ⟨visits, life, heard.symm.trans (of_decide_eq_true facts)⟩, single⟩
    · cases facts

end ReactiveTree
