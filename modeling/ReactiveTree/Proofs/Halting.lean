import Mathlib.Data.List.Forall2
import ReactiveTree.Proofs.Exclusion
import ReactiveTree.Proofs.Tracking

/-!
What a stop does, whatever state the nodes are in. Every node does its share of it after those below
it: it gives up its task, an action that runs is told to stop, and observers hear of each node that
did not wait already. A stop is these shares one after the other (`stop_cx`), so what it leaves
behind is read off the list of the nodes, and a second stop finds nothing left to do.
-/

namespace ReactiveTree

variable {H : Host}

mutual

/-- All nodes of a tree with their states, each of them behind the nodes below it. -/
def Live.ascent : {tree : Tree H} → Live H tree → List (Part H)
  | _, live@(.relay _ kid) => kid.ascent ++ [⟨_, live⟩]
  | _, live@(.repeater _ _ kid) => kid.ascent ++ [⟨_, live⟩]
  | _, live@(.loop _ _ kid) => kid.ascent ++ [⟨_, live⟩]
  | _, live@(.gate _ _ _ _ kid) => kid.ascent ++ [⟨_, live⟩]
  | _, live@(.ordered _ kids) => kids.ascent ++ [⟨_, live⟩]
  | _, live@(.weighted _ _ kids) => kids.ascent ++ [⟨_, live⟩]
  | _, live@(.parallel _ first second) => first.ascent ++ second.ascent ++ [⟨_, live⟩]
  | _, live@(.condition _ _) => [⟨_, live⟩]
  | _, live@(.action _ _ _) => [⟨_, live⟩]

def LiveForest.ascent : {trees : Forest H} → LiveForest H trees → List (Part H)
  | _, .nil => []
  | _, .cons head tail => head.ascent ++ tail.ascent

end

mutual

theorem ascent_perm : {tree : Tree H} → (live : Live H tree) → live.ascent.Perm live.parts
  | _, .relay _ kid | _, .repeater _ _ kid | _, .loop _ _ kid | _, .gate _ _ _ _ kid =>
    (List.perm_append_singleton _ _).trans ((ascent_perm kid).cons _)
  | _, .ordered _ kids | _, .weighted _ _ kids =>
    (List.perm_append_singleton _ _).trans ((ascent_perm_all kids).cons _)
  | _, .parallel _ first second =>
    (List.perm_append_singleton _ _).trans
      (((ascent_perm first).append (ascent_perm second)).cons _)
  | _, .condition _ _ | _, .action _ _ _ => .refl _

theorem ascent_perm_all : {trees : Forest H} → (lives : LiveForest H trees) →
    lives.ascent.Perm lives.parts
  | _, .nil => .refl _
  | _, .cons head tail => (ascent_perm head).append (ascent_perm_all tail)

end

def Part.acts : Part H → Bool
  | ⟨.action _ _, .action status _ _⟩ => status.isRunning
  | _ => false

/-- If the part is an action that runs, it is told to stop. -/
def Context.dismiss (cx : Context H) : Part H → Context H
  | ⟨.action label _, .action status unit _⟩ => (haltAction label status unit cx).cx
  | _ => cx

/-- The share of one node in a stop. -/
def Context.retire (cx : Context H) (part : Part H) : Context H :=
  ((cx.cancel part.live.task?).dismiss part).settle part.tree.label part.tree.kind part.live.status

section Shares

variable (cx : Context H)

theorem cancel_comm (task task' : Option Nat) :
    (cx.cancel task).cancel task' = (cx.cancel task').cancel task := by
  cases task with
  | none => rfl
  | some task =>
    cases task' with
    | none => rfl
    | some task' => simp [Context.cancel, Agenda.cancel, List.filter_filter, Bool.and_comm]

theorem settle_cancel (label : Label) (kind : NodeKind) (status : Status) (task : Option Nat) :
    (cx.cancel task).settle label kind status = (cx.settle label kind status).cancel task := by
  unfold Context.settle
  split
  · rfl
  · cases task <;> rfl

theorem dismiss_cancel (part : Part H) (task : Option Nat) :
    (cx.cancel task).dismiss part = (cx.dismiss part).cancel task := by
  obtain ⟨tree, live⟩ := part
  cases live with
  | action status unit own =>
    cases task with
    | none => rfl
    | some task =>
      simp only [Context.dismiss, haltAction]
      split <;> rfl
  | _ => rfl

theorem retire_cancel (part : Part H) (task : Option Nat) :
    (cx.cancel task).retire part = (cx.retire part).cancel task := by
  simp only [Context.retire, dismiss_cancel, settle_cancel]
  exact cancel_comm _ _ _

theorem retire_all_cancel (parts : List (Part H)) (task : Option Nat) :
    parts.foldl Context.retire (cx.cancel task) =
      (parts.foldl Context.retire cx).cancel task := by
  induction parts generalizing cx with
  | nil => rfl
  | cons part rest ih => rw [List.foldl_cons, retire_cancel, ih, List.foldl_cons]

end Shares

mutual

/-- A node gives up its task before its descendants do, but to them it is as if it came after. -/
theorem stop_cx : (tree : Tree H) → (live : Live H tree) → (cx : Context H) →
    (stop tree live cx).cx = live.ascent.foldl Context.retire cx
  | .relay role label child, .relay status kid, cx => by
    rw [stop, Live.ascent, List.foldl_append, ← stop_cx child kid cx]
    rfl
  | .repeater _ child, .repeater _ _ kid, cx | .loop _ _ child, .loop _ _ kid, cx
  | .gate _ _ _ _ child, .gate _ _ _ _ kid, cx => by
    rw [stop, Live.ascent, List.foldl_append, stop_cx child kid, retire_all_cancel]
    rfl
  | .ordered _ _ children, .ordered _ kids, cx | .weighted _ _ children, .weighted _ _ kids, cx => by
    rw [stop, Live.ascent, List.foldl_append, ← stopAll_cx children kids cx]
    rfl
  | .parallel label main background, .parallel status first second, cx => by
    rw [stop, Live.ascent, List.foldl_append, List.foldl_append, ← stop_cx main first cx,
      ← stop_cx background second]
    rfl
  | .condition _ _, .condition _ _, _ | .action _ _, .action _ _ _, _ => rfl

theorem stopAll_cx : (trees : Forest H) → (lives : LiveForest H trees) → (cx : Context H) →
    (stopAll trees lives cx).cx = lives.ascent.foldl Context.retire cx
  | .nil, .nil, _ => rfl
  | .cons tree trees, .cons head tail, cx => by
    rw [stopAll, LiveForest.ascent, List.foldl_append, ← stop_cx tree head cx,
      ← stopAll_cx trees tail]

end

section Tasks

def Agenda.without (agenda : Agenda) (tasks : List Nat) : Agenda :=
  { agenda with tasks := agenda.tasks.filter fun task => task.id ∉ tasks }

variable (cx : Context H)

theorem dismiss_agenda (part : Part H) : (cx.dismiss part).agenda = cx.agenda := by
  obtain ⟨tree, live⟩ := part
  cases live with
  | action status unit task => exact haltAction_agenda _ _ _ _
  | _ => rfl

theorem retire_agenda (part : Part H) :
    (cx.retire part).agenda = cx.agenda.without part.live.task?.toList := by
  have given : (cx.cancel part.live.task?).agenda =
      cx.agenda.without part.live.task?.toList := by
    cases part.live.task? with
    | none => simp [Context.cancel, Agenda.without]
    | some task => simp [Context.cancel, Agenda.cancel, Agenda.without]
  rw [← given, Context.retire, Context.settle_agenda, dismiss_agenda]

theorem retire_all_agenda (parts : List (Part H)) : (parts.foldl Context.retire cx).agenda =
    cx.agenda.without (parts.flatMap (·.live.task?.toList)) := by
  induction parts generalizing cx with
  | nil => simp [Agenda.without]
  | cons part rest ih =>
    rw [List.foldl_cons, ih, retire_agenda]
    simp [Agenda.without, List.filter_filter, Bool.and_comm]

/-- A stop takes the tasks that are held off the agenda, and no others. -/
theorem stop_agenda (tree : Tree H) (live : Live H tree) : (stop tree live cx).cx.agenda =
    cx.agenda.without (live.handles.map Handle.task) := by
  have held (part : Part H) : part.live.task?.toList = part.holds.map Handle.task := by
    unfold Part.holds
    cases part.live.task? <;> rfl
  have all : (live.ascent.flatMap (·.live.task?.toList)).Perm (live.handles.map Handle.task) := by
    rw [handles_eq, List.map_flatMap]
    simp only [held]
    exact (ascent_perm live).flatMap_right _
  rw [stop_cx, retire_all_agenda]
  simp only [Agenda.without, all.mem_iff]

end Tasks

section Words

variable (cx : Context H)

def Part.Hears (part : Part H) (call : Nat × UnitCall) : Prop :=
  ∃ answer, call = (part.tree.id, .act .stop answer)

def Part.rests (part : Part H) : Change :=
  ⟨part.tree.id, part.tree.label.key, part.tree.kind, .waiting⟩

/-- The parts took their leave one after the other: the actions that ran were told to stop, whatever
they answered, and what did not wait waits again. -/
structure Leave (parts : List (Part H)) (said : List Event) : Prop where
  calls : List.Forall₂ Part.Hears (parts.filter Part.acts) (said.filterMap Event.call?)
  changes : said.filterMap Event.change? =
    (parts.filter (·.live.status ≠ .waiting)).map Part.rests

theorem Leave.append {parts others : List (Part H)} {said more : List Event}
    (first : Leave parts said) (rest : Leave others more) :
    Leave (parts ++ others) (said ++ more) := by
  constructor
  · rw [List.filter_append, List.filterMap_append]
    exact List.rel_append first.calls rest.calls
  · rw [List.filterMap_append, first.changes, rest.changes, List.filter_append, List.map_append]

theorem dismiss_events (part : Part H) : ∃ said, (cx.dismiss part).events = cx.events ++ said ∧
    said.filterMap Event.change? = [] ∧
    List.Forall₂ Part.Hears ([part].filter Part.acts) (said.filterMap Event.call?) := by
  obtain ⟨tree, live⟩ := part
  cases live with
  | @action label bound status unit task =>
    by_cases runs : status.isRunning
    · let reply := H.act .stop unit cx.scene
      refine ⟨[.called label.id (.act .stop reply.answer)], ?_, rfl, ?_⟩
      · rw [Context.dismiss, haltAction, if_pos runs]
        exact cx.events_record _
      · simp [Part.acts, runs, Event.call?, Part.Hears, Tree.id, Tree.label]
    · refine ⟨[], ?_, rfl, ?_⟩
      · rw [Context.dismiss, haltAction, if_neg runs, List.append_nil]
      · simp [Part.acts, runs]
  | _ => exact ⟨[], (List.append_nil _).symm, rfl, .nil⟩

theorem retire_events (part : Part H) : ∃ said,
    (cx.retire part).events = cx.events ++ said ∧ Leave [part] said := by
  obtain ⟨said, told, silent, calls⟩ := dismiss_events (cx.cancel part.live.task?) part
  have same : (cx.cancel part.live.task?).events = cx.events := by
    cases part.live.task? <;> rfl
  rw [same] at told
  by_cases waits : part.live.status = .waiting
  · refine ⟨said, ?_, calls, ?_⟩
    · rw [Context.retire, Context.settle, if_pos waits, told]
    · simpa [waits] using silent
  · refine ⟨said ++ [.changed part.rests], ?_, ?_, ?_⟩
    · rw [Context.retire, Context.settle, if_neg waits, ← List.append_assoc, ← told]
      exact Context.events_record _ _
    · rw [List.filterMap_append]
      exact (List.append_nil _).symm ▸ calls
    · rw [List.filterMap_append, silent]
      simp [waits, Event.change?]

theorem retire_all_events (parts : List (Part H)) : ∃ said,
    (parts.foldl Context.retire cx).events = cx.events ++ said ∧ Leave parts said := by
  induction parts generalizing cx with
  | nil => exact ⟨[], (List.append_nil _).symm, .nil, rfl⟩
  | cons part rest ih =>
    obtain ⟨said, told, leave⟩ := retire_events cx part
    obtain ⟨more, later, leave'⟩ := ih (cx.retire part)
    refine ⟨said ++ more, ?_, leave.append leave'⟩
    rw [List.foldl_cons, later, told, List.append_assoc]

end Words

/-- The part waits, holds no task and has chosen no child. -/
structure Part.Dormant (part : Part H) : Prop where
  waits : part.live.status = .waiting
  unheld : part.live.task? = none
  unchosen : part.live.selected = none

mutual

theorem stop_dormant : (tree : Tree H) → (live : Live H tree) → (cx : Context H) →
    ∀ part ∈ (stop tree live cx).live.parts, part.Dormant
  | .relay _ _ child, .relay _ kid, cx =>
    List.forall_mem_cons.mpr ⟨⟨rfl, rfl, rfl⟩, stop_dormant child kid cx⟩
  | .repeater _ child, .repeater _ _ kid, _ | .loop _ _ child, .loop _ _ kid, _
  | .gate _ _ _ _ child, .gate _ _ _ _ kid, _ =>
    List.forall_mem_cons.mpr ⟨⟨rfl, rfl, rfl⟩, stop_dormant child kid _⟩
  | .ordered _ _ children, .ordered _ kids, cx | .weighted _ _ children, .weighted _ _ kids, cx =>
    List.forall_mem_cons.mpr ⟨⟨rfl, rfl, rfl⟩, stopAll_dormant children kids cx⟩
  | .parallel _ main background, .parallel _ first second, cx =>
    List.forall_mem_cons.mpr ⟨⟨rfl, rfl, rfl⟩, List.forall_mem_append.mpr
      ⟨stop_dormant main first cx, stop_dormant background second _⟩⟩
  | .condition _ _, .condition _ _, _ | .action _ _, .action _ _ _, _ =>
    List.forall_mem_singleton.mpr ⟨rfl, rfl, rfl⟩

theorem stopAll_dormant : (trees : Forest H) → (lives : LiveForest H trees) → (cx : Context H) →
    ∀ part ∈ (stopAll trees lives cx).live.parts, part.Dormant
  | .nil, .nil, _ => List.forall_mem_nil _
  | .cons tree trees, .cons head tail, cx => List.forall_mem_append.mpr
      ⟨stop_dormant tree head cx, stopAll_dormant trees tail _⟩

end

mutual

theorem stop_of_dormant : (tree : Tree H) → (live : Live H tree) → (cx : Context H) →
    (∀ part ∈ live.parts, part.Dormant) → stop tree live cx = ⟨live, cx⟩
  | .relay role label child, .relay status kid, cx, dormant => by
    obtain ⟨⟨rfl, _, _⟩, below⟩ := List.forall_mem_cons.mp dormant
    rw [stop, stop_of_dormant child kid cx below]
    rfl
  | .repeater _ child, .repeater _ _ kid, cx, dormant | .loop _ _ child, .loop _ _ kid, cx, dormant
  | .gate _ _ _ _ child, .gate _ _ _ _ kid, cx, dormant => by
    obtain ⟨⟨rfl, rfl, _⟩, below⟩ := List.forall_mem_cons.mp dormant
    rw [stop, Context.cancel, stop_of_dormant child kid cx below]
    rfl
  | .ordered order label children, .ordered status kids, cx, dormant => by
    obtain ⟨⟨rfl, _, _⟩, below⟩ := List.forall_mem_cons.mp dormant
    rw [stop, stopAll_of_dormant children kids cx below]
    rfl
  | .weighted label _ children, .weighted status selected kids, cx, dormant => by
    obtain ⟨⟨rfl, _, rfl⟩, below⟩ := List.forall_mem_cons.mp dormant
    rw [stop, stopAll_of_dormant children kids cx below]
    rfl
  | .parallel label main background, .parallel status first second, cx, dormant => by
    obtain ⟨⟨rfl, _, _⟩, below⟩ := List.forall_mem_cons.mp dormant
    obtain ⟨left, right⟩ := List.forall_mem_append.mp below
    rw [stop, stop_of_dormant main first cx left, stop_of_dormant background second cx right]
    rfl
  | .condition label _, .condition status unit, cx, dormant => by
    obtain ⟨rfl, _, _⟩ := List.forall_mem_singleton.mp dormant
    rfl
  | .action label _, .action status unit task, cx, dormant => by
    obtain ⟨rfl, rfl, _⟩ := List.forall_mem_singleton.mp dormant
    rfl

theorem stopAll_of_dormant : (trees : Forest H) → (lives : LiveForest H trees) →
    (cx : Context H) → (∀ part ∈ lives.parts, part.Dormant) →
    stopAll trees lives cx = ⟨lives, cx⟩
  | .nil, .nil, _, _ => rfl
  | .cons tree trees, .cons head tail, cx, dormant => by
    obtain ⟨first, rest⟩ := List.forall_mem_append.mp dormant
    rw [stopAll, stop_of_dormant tree head cx first, stopAll_of_dormant trees tail cx rest]

end

/-- A stop makes all nodes dormant and takes their tasks, and only theirs, off the agenda. The
actions that ran are told so in order, and observers are told once of each node that did not wait,
of the nodes below it first. A second stop does nothing. -/
theorem stop_settles (tree : Tree H) (live : Live H tree) (cx : Context H) :
    let stopped := stop tree live cx
    (∀ part ∈ stopped.live.parts, part.Dormant) ∧
    stopped.cx.agenda = cx.agenda.without (live.handles.map Handle.task) ∧
    stopped.cx = live.ascent.foldl Context.retire cx ∧
    (∃ said, stopped.cx.events = cx.events ++ said ∧ Leave live.ascent said) ∧
    ∀ later, stop tree stopped.live later = ⟨stopped.live, later⟩ := by
  intro stopped
  have dormant : ∀ part ∈ stopped.live.parts, part.Dormant := stop_dormant tree live cx
  refine ⟨dormant, stop_agenda cx tree live, stop_cx tree live cx, ?_, ?_⟩
  · obtain ⟨said, told, leave⟩ := retire_all_events cx live.ascent
    exact ⟨said, stop_cx tree live cx ▸ told, leave⟩
  · exact fun later => stop_of_dormant tree stopped.live later dormant

end ReactiveTree
