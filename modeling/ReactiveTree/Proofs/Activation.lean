import ReactiveTree.Proofs.Routing
import ReactiveTree.Proofs.Waking

/-!
What an action does in the sight of its unit and of observers: the calls that the unit gets, and the
states that the node shows. All of it belongs to activations. An activation starts the unit and
updates it at once; if it goes on from there it has registered a task, and the unit is updated for
every wake for that task, until it ends with a verdict, with a fault, or because it is stopped.

A stage is what one move of the tree makes an action do, a course is any number of stages, and what
a wake brings about begins with the update that it is for.
-/

namespace ReactiveTree

variable {H : Host}

inductive Deed where
  | called (phase : Phase) (answer : Progress)
  | showed (status : Status)
  deriving DecidableEq, Repr

/-- What an event says of the action with the id. -/
def Event.deed? (id : Nat) : Event → Option Deed
  | .called node (.act phase answer) => if node = id then some (.called phase answer) else none
  | .changed ⟨node, _, .actionNode, status⟩ => if node = id then some (.showed status) else none
  | _ => none

def Context.deeds (id : Nat) (cx : Context H) : List Deed :=
  cx.events.filterMap (Event.deed? id)

/-- The state that an action is in after a start or an update that ended the activation. -/
def Progress.ending? : Progress → Option Status
  | .ongoing => none
  | .finished success => some (.ofBool success)
  | .faulted => some .warning

/-- One move of the tree on an action that holds the first task and then the second. Tasks below the
floor are old. -/
inductive Stage (floor : Nat) : Option Nat → List Deed → Option Nat → Prop
  | resets : Stage floor none [.showed .waiting] none
  | endsByStart {answer : Progress} {status : Status} (ended : answer.ending? = some status) :
      Stage floor none [.showed .running, .called .start answer, .showed status] none
  | endsByUpdate {answer : Progress} {status : Status} (ended : answer.ending? = some status) :
      Stage floor none
        [.showed .running, .called .start .ongoing, .called .update answer, .showed status] none
  | begins {task : Nat} (recent : floor ≤ task) :
      Stage floor none [.showed .running, .called .start .ongoing, .called .update .ongoing]
        (some task)
  | halts (task : Nat) (answer : Progress) :
      Stage floor (some task) [.called .stop answer, .showed .waiting] none

inductive Course (floor : Nat) : Option Nat → List Deed → Option Nat → Prop
  | rest (task : Option Nat) : Course floor task [] task
  | step {before middle after : Option Nat} {deeds more : List Deed}
      (course : Course floor before deeds middle) (stage : Stage floor middle more after) :
      Course floor before (deeds ++ more) after

/-- What a wake itself makes the action with the id do: nothing, unless it is for the action and for
the task that the action holds. -/
inductive Woken (id : Nat) (due : Wake) : Option Nat → List Deed → Option Nat → Prop
  | unheard {before : Option Nat} (apart : ¬ (due.node = id ∧ before = some due.task)) :
      Woken id due before [] before
  | updates (own : due.node = id) :
      Woken id due (some due.task) [.called .update .ongoing] (some due.task)
  | ends (own : due.node = id) {answer : Progress} {status : Status}
      (ended : answer.ending? = some status) :
      Woken id due (some due.task) [.called .update answer, .showed status] none

/-- What the delivery of a wake makes an action do: after the wake itself the nodes above the woken
one may go on. -/
def Heard (floor id : Nat) (due : Wake) (before : Option Nat) (deeds : List Deed)
    (after : Option Nat) : Prop :=
  ∃ own middle rest, Woken id due before own middle ∧ Course floor middle rest after ∧
    deeds = own ++ rest

/-- What a stop of the tree makes an action do, which runs or not. -/
inductive Halted : Bool → List Deed → Prop
  | idle : Halted false []
  | resets : Halted false [.showed .waiting]
  | halts (answer : Progress) : Halted true [.called .stop answer, .showed .waiting]

section Courses

variable {floor id : Nat} {due : Wake} {before middle after : Option Nat} {deeds more : List Deed}

theorem Stage.mono {low : Nat} (stage : Stage floor before deeds after) (below : low ≤ floor) :
    Stage low before deeds after := by
  cases stage with
  | resets => exact .resets
  | endsByStart ended => exact .endsByStart ended
  | endsByUpdate ended => exact .endsByUpdate ended
  | begins recent => exact .begins (Nat.le_trans below recent)
  | halts task answer => exact .halts task answer

theorem Course.trans (first : Course floor before deeds middle)
    (second : Course floor middle more after) : Course floor before (deeds ++ more) after := by
  induction second with
  | rest => rwa [List.append_nil]
  | step _ stage ih =>
    rw [← List.append_assoc]
    exact .step ih stage

theorem Course.mono {low : Nat} (course : Course floor before deeds after) (below : low ≤ floor) :
    Course low before deeds after := by
  induction course with
  | rest => exact .rest _
  | step _ stage ih => exact .step ih (stage.mono below)

theorem Course.recent (course : Course floor before deeds after) :
    after = before ∨ ∀ task, after = some task → floor ≤ task := by
  induction course with
  | rest => exact .inl rfl
  | step _ stage ih =>
    cases stage with
    | begins recent =>
      right
      rintro _ ⟨⟩
      exact recent
    | _ => exact .inr nofun

theorem Heard.step (heard : Heard floor id due before deeds middle)
    (stage : Stage floor middle more after) : Heard floor id due before (deeds ++ more) after := by
  obtain ⟨own, woken, rest, first, course, rfl⟩ := heard
  exact ⟨own, woken, rest ++ more, first, .step course stage, List.append_assoc _ _ _⟩

theorem Woken.heard (floor : Nat) (woken : Woken id due before deeds after) :
    Heard floor id due before deeds after :=
  ⟨deeds, after, [], woken, .rest after, (List.append_nil _).symm⟩

theorem Heard.mono {low : Nat} (heard : Heard floor id due before deeds after)
    (below : low ≤ floor) : Heard low id due before deeds after := by
  obtain ⟨own, woken, rest, first, course, rfl⟩ := heard
  exact ⟨own, woken, rest, first, course.mono below, rfl⟩

theorem Heard.course (heard : Heard floor id due before deeds after)
    (apart : ¬ (due.node = id ∧ before = some due.task)) : Course floor before deeds after := by
  obtain ⟨own, woken, rest, first, course, rfl⟩ := heard
  cases first with
  | unheard => exact course
  | updates own => exact absurd ⟨own, rfl⟩ apart
  | ends own => exact absurd ⟨own, rfl⟩ apart

theorem Heard.recent (heard : Heard floor id due before deeds after) :
    after = before ∨ ∀ task, after = some task → floor ≤ task := by
  obtain ⟨own, woken, rest, first, course, rfl⟩ := heard
  cases first with
  | unheard | updates => exact course.recent
  | ends =>
    rcases course.recent with rfl | recent
    · exact .inr nofun
    · exact .inr recent

end Courses

/-- An activation that goes on, after a number of updates. -/
def opening (updates : Nat) : List Deed :=
  .showed .running :: .called .start .ongoing :: List.replicate updates (.called .update .ongoing)

/-- A whole activation. One that is stopped shows no verdict, and no other one is told to stop. -/
inductive Activation : List Deed → Prop
  | endedByStart {answer : Progress} {status : Status} (ended : answer.ending? = some status) :
      Activation [.showed .running, .called .start answer, .showed status]
  | endedByUpdate (updates : Nat) {answer : Progress} {status : Status}
      (ended : answer.ending? = some status) :
      Activation (opening updates ++ [.called .update answer, .showed status])
  | stopped (updates : Nat) (answer : Progress) :
      Activation (opening (updates + 1) ++ [.called .stop answer, .showed .waiting])

/-- All that an action that holds the task did so far: whole activations, resets in between, and the
activation that is open if there is a task. -/
def Splits (deeds : List Deed) (task : Option Nat) : Prop :=
  ∃ pieces : List (List Deed), (∀ piece ∈ pieces, Activation piece ∨ piece = [.showed .waiting]) ∧
    match task with
    | none => deeds = pieces.flatten
    | some _ => ∃ updates, deeds = pieces.flatten ++ opening (updates + 1)

section Splitting

variable {floor id : Nat} {due : Wake} {task after : Option Nat} {deeds more piece : List Deed}

theorem Splits.start : Splits [] none :=
  ⟨[], nofun, rfl⟩

theorem opening_succ (updates : Nat) :
    opening (updates + 1) = opening updates ++ [.called .update .ongoing] := by
  simp [opening, List.replicate_succ']

theorem Splits.closed (splits : Splits deeds none)
    (whole : Activation piece ∨ piece = [.showed .waiting]) : Splits (deeds ++ piece) none := by
  obtain ⟨pieces, parts, rfl⟩ := splits
  refine ⟨pieces ++ [piece], ?_, ?_⟩
  · exact List.forall_mem_append.mpr ⟨parts, List.forall_mem_singleton.mpr whole⟩
  · simp

theorem Splits.closes {held : Nat} (splits : Splits deeds (some held))
    (whole : ∀ updates, Activation (opening (updates + 1) ++ more)) :
    Splits (deeds ++ more) none := by
  obtain ⟨pieces, parts, updates, rfl⟩ := splits
  have closed : Splits pieces.flatten none := ⟨pieces, parts, rfl⟩
  rw [List.append_assoc]
  exact closed.closed (.inl (whole updates))

theorem Splits.stage (splits : Splits deeds task) (stage : Stage floor task more after) :
    Splits (deeds ++ more) after := by
  cases stage with
  | resets => exact splits.closed (.inr rfl)
  | endsByStart ended => exact splits.closed (.inl (.endedByStart ended))
  | endsByUpdate ended => exact splits.closed (.inl (.endedByUpdate 0 ended))
  | begins =>
    obtain ⟨pieces, parts, rfl⟩ := splits
    exact ⟨pieces, parts, 0, rfl⟩
  | halts task answer => exact splits.closes fun updates => .stopped updates answer

theorem Splits.woken (splits : Splits deeds task) (woken : Woken id due task more after) :
    Splits (deeds ++ more) after := by
  cases woken with
  | unheard => rwa [List.append_nil]
  | updates =>
    obtain ⟨pieces, parts, updates, rfl⟩ := splits
    refine ⟨pieces, parts, updates + 1, ?_⟩
    rw [opening_succ (updates + 1), List.append_assoc]
  | ends _ ended => exact splits.closes fun updates => .endedByUpdate (updates + 1) ended

theorem Splits.course (splits : Splits deeds task) (course : Course floor task more after) :
    Splits (deeds ++ more) after := by
  induction course with
  | rest => rwa [List.append_nil]
  | step _ stage ih =>
    rw [← List.append_assoc]
    exact ih.stage stage

theorem Splits.halted (splits : Splits deeds task) (halted : Halted task.isSome more) :
    Splits (deeds ++ more) none := by
  cases task with
  | none =>
    cases halted with
    | idle => rwa [List.append_nil]
    | resets => exact splits.closed (.inr rfl)
  | some held =>
    cases halted with
    | halts answer => exact splits.closes fun updates => .stopped updates answer

theorem Splits.heard (splits : Splits deeds task) (heard : Heard floor id due task more after) :
    Splits (deeds ++ more) after := by
  obtain ⟨own, middle, rest, woken, course, rfl⟩ := heard
  rw [← List.append_assoc]
  exact (splits.woken woken).course course

end Splitting

/-- Whether an action runs, and the task that it holds. -/
structure Posture where
  runs : Bool
  task : Option Nat
  deriving DecidableEq, Repr

/-- An action runs exactly while it holds a task. -/
def Posture.holding (task : Option Nat) : Posture := ⟨task.isSome, task⟩

def Part.posture? (id : Nat) : Part H → Option Posture
  | ⟨.action label _, .action status _ task⟩ =>
    if label.id = id then some ⟨status.isRunning, task⟩ else none
  | _ => none

/-- The postures of the actions with the id, of which a numbered tree has one at most. -/
def Live.postures (id : Nat) {tree : Tree H} (live : Live H tree) : List Posture :=
  live.parts.filterMap (Part.posture? id)

def LiveForest.postures (id : Nat) {trees : Forest H} (lives : LiveForest H trees) : List Posture :=
  lives.parts.filterMap (Part.posture? id)

section Postures

variable {id : Nat} {label : Label} {main background : Tree H} {status : Status}

theorem postures_parallel (first : Live H main) (second : Live H background) :
    (Live.parallel status first second : Live H (.parallel label main background)).postures id =
      first.postures id ++ second.postures id :=
  List.filterMap_append

theorem postures_cons {tree : Tree H} {trees : Forest H} (head : Live H tree)
    (tail : LiveForest H trees) :
    (LiveForest.cons head tail).postures id = head.postures id ++ tail.postures id :=
  List.filterMap_append

theorem postures_own {bound unit : H.Action} {task : Option Nat} :
    (Live.action status unit task : Live H (.action label bound)).postures label.id =
      [⟨status.isRunning, task⟩] := by
  simp [Live.postures, Live.parts, Part.posture?]

theorem postures_other {bound unit : H.Action} {task : Option Nat} (other : label.id ≠ id) :
    (Live.action status unit task : Live H (.action label bound)).postures id = [] := by
  simp [Live.postures, Live.parts, Part.posture?, other]

theorem posture?_eq_some {part : Part H} {posture : Posture}
    (found : part.posture? id = some posture) : ∃ label bound unit status,
      part = ⟨.action label bound, .action status unit posture.task⟩ ∧ label.id = id ∧
        status.isRunning = posture.runs := by
  unfold Part.posture? at found
  split at found
  · rename_i label bound status unit task
    split at found
    · rename_i own
      cases found
      exact ⟨label, bound, unit, status, rfl, own, rfl⟩
    · cases found
  · cases found

theorem posture?_id {part : Part H} {posture : Posture}
    (found : part.posture? id = some posture) : part.tree.id = id := by
  obtain ⟨label, bound, unit, status, rfl, own, _⟩ := posture?_eq_some found
  exact own

theorem postures_absent {parts : List (Part H)} (absent : id ∉ parts.map (·.tree.id)) :
    parts.filterMap (Part.posture? id) = [] := by
  apply List.filterMap_eq_nil_iff.mpr
  intro part member
  cases found : part.posture? id with
  | none => rfl
  | some posture => exact absurd (List.mem_map.mpr ⟨part, member, posture?_id found⟩) absent

theorem postures_outside {tree : Tree H} (live : Live H tree)
    (outside : id ∉ tree.labels.map Label.id) : live.postures id = [] := by
  rw [← parts_labels live, List.map_map] at outside
  exact postures_absent outside

theorem postures_outside_all {trees : Forest H} (lives : LiveForest H trees)
    (outside : id ∉ trees.labels.map Label.id) : lives.postures id = [] := by
  rw [← parts_labels_all lives, List.map_map] at outside
  exact postures_absent outside

end Postures

end ReactiveTree
