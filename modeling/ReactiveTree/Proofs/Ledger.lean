import Mathlib.Data.List.Nodup
import ReactiveTree.Reaction

/-!
The books of an agenda. A node that asked to be woken holds a handle of its task, and the books are
balanced when the tasks of the agenda are the handles held, each once. Two things may stand apart
from that: a timer that is due has left the agenda while its wake is still to be delivered, and a
task may have lost its holder, which no node can cancel any more.

Each lemma here is about one entry of the books and leaves the other handles alone, so what holds of
the handles of a subtree holds of it inside any tree.
-/

namespace ReactiveTree

/-- A task in the hands of a node. `once` tells a timer from a task for every tick. -/
structure Handle where
  node : Nat
  task : Nat
  once : Bool
  deriving DecidableEq, Repr

def Trigger.isOnce : Trigger → Bool
  | .everyTick => false
  | .deadline _ => true

def Task.handle (task : Task) : Handle := ⟨task.node, task.id, task.trigger.isOnce⟩

def Label.holds (label : Label) (once : Bool) : Option Nat → List Handle
  | none => []
  | some task => [⟨label.id, task, once⟩]

/-- The task is not a timer that fired in the batch of wakes. -/
def Handle.waits (due : List Wake) (handle : Handle) : Bool :=
  !(handle.once && due.contains ⟨handle.node, handle.task⟩)

/-- The tasks of the agenda are the handles held, those of `due` aside, and the ones lost. -/
structure Balanced (due : List Wake) (held lost : List Handle) (agenda : Agenda) : Prop where
  posted : (agenda.tasks.map Task.handle).Perm (held.filter (Handle.waits due) ++ lost)
  distinct : ((held ++ lost).map Handle.task).Nodup
  known : ∀ handle ∈ held ++ lost, handle.task < agenda.nextId
  past : ∀ wake ∈ due, wake.task < agenda.nextId
  restless : ∀ handle ∈ lost, handle.once = false

namespace Handle

theorem waits_cons (wake : Wake) (due : List Wake) (handle : Handle) :
    handle.waits (wake :: due) = (handle.waits [wake] && handle.waits due) := by
  cases once : handle.once <;> simp [waits, once, Bool.not_or]

@[simp] theorem waits_nil (handle : Handle) : handle.waits [] = true := by
  simp [waits]

theorem waits_of_tick {handle : Handle} (tick : handle.once = false) (due : List Wake) :
    handle.waits due = true := by
  simp [waits, tick]

theorem waits_of_new {handle : Handle} {due : List Wake}
    (recent : ∀ wake ∈ due, wake.task < handle.task) : handle.waits due = true := by
  have absent : ⟨handle.node, handle.task⟩ ∉ due := by
    intro member
    exact Nat.lt_irrefl _ (recent _ member)
  simp [waits, absent]

end Handle

/-- The tasks that stay when the clock advances are those that wait for no wake of the batch. -/
theorem stays_eq_waits {agenda : Agenda} (ids : (agenda.tasks.map Task.id).Nodup) (delta : Nat)
    {task : Task} (member : task ∈ agenda.tasks) :
    task.trigger.stays (agenda.now + delta) = task.handle.waits (agenda.advance delta).1 := by
  cases trigger : task.trigger with
  | everyTick =>
    have tick : task.handle.once = false := by simp [Task.handle, trigger, Trigger.isOnce]
    exact (Handle.waits_of_tick tick _).symm
  | deadline time =>
    have once : task.handle.once = true := by simp [Task.handle, trigger, Trigger.isOnce]
    have fires : ⟨task.node, task.id⟩ ∈ (agenda.advance delta).1 ↔ time ≤ agenda.now + delta := by
      constructor
      · intro fired
        obtain ⟨other, due, same⟩ := List.mem_map.mp fired
        obtain ⟨there, due⟩ := List.mem_filter.mp due
        -- no other task has the number, so the one that fired is this one
        obtain rfl := List.inj_on_of_nodup_map ids there member (Wake.mk.inj same).2
        simpa [trigger, Trigger.isDue] using due
      · intro due
        exact List.mem_map.mpr ⟨task, List.mem_filter.mpr ⟨member, by
          simpa [trigger, Trigger.isDue] using due⟩, rfl⟩
    have waits : task.handle.waits (agenda.advance delta).1 =
        !decide (time ≤ agenda.now + delta) := by
      rw [Handle.waits, once, Bool.true_and, List.contains_eq_mem]
      exact congrArg (!·) (decide_eq_decide.mpr fires)
    exact waits.symm

namespace Balanced

variable {due : List Wake} {held held' lost lost' : List Handle} {agenda : Agenda}

theorem start : Balanced [] [] [] {} := by
  constructor <;> simp

theorem perm (balanced : Balanced due held lost agenda) (same : held.Perm held')
    (lostSame : lost.Perm lost') : Balanced due held' lost' agenda := by
  constructor
  · exact balanced.posted.trans ((same.filter _).append lostSame)
  · exact ((same.append lostSame).map _).nodup_iff.mp balanced.distinct
  · intro handle member
    exact balanced.known handle ((same.append lostSame).mem_iff.mpr member)
  · exact balanced.past
  · intro handle member
    exact balanced.restless handle (lostSame.mem_iff.mpr member)

theorem given (balanced : Balanced due held lost agenda) :
    ∀ task ∈ agenda.tasks, task.id < agenda.nextId := by
  intro task member
  apply balanced.known task.handle
  have booked := balanced.posted.mem_iff.mp (List.mem_map_of_mem member)
  exact (List.filter_sublist.append (List.Sublist.refl _)).subset booked

theorem swap {front : List Handle} (balanced : Balanced due (front ++ (held ++ held')) lost agenda) :
    Balanced due (held ++ (front ++ held')) lost agenda :=
  balanced.perm (List.perm_append_comm_assoc front held held') (.refl lost)

theorem cancel {handle : Handle} (balanced : Balanced due (handle :: held) lost agenda) :
    Balanced due held lost (agenda.cancel handle.task) := by
  obtain ⟨others, distinct⟩ := List.nodup_cons.mp balanced.distinct
  have apart : ∀ other ∈ held ++ lost, other.task ≠ handle.task := by
    intro other member same
    exact others (List.mem_map.mpr ⟨other, member, same⟩)
  constructor
  · -- the agenda drops by number, and no handle but the cancelled one has the number
    have kept := balanced.posted.filter fun other => other.task ≠ handle.task
    have heldKept : held.filter (·.task ≠ handle.task) = held := by
      apply List.filter_eq_self.mpr
      intro other member
      exact decide_eq_true (apart other (List.mem_append_left _ member))
    have lostKept : lost.filter (·.task ≠ handle.task) = lost := by
      apply List.filter_eq_self.mpr
      intro other member
      exact decide_eq_true (apart other (List.mem_append_right _ member))
    rw [List.filter_map, List.filter_append, lostKept, List.filter_comm,
      List.filter_cons_of_neg (by simp), heldKept] at kept
    exact kept
  · exact distinct
  · intro other member
    exact balanced.known other (List.mem_cons_of_mem _ member)
  · exact balanced.past
  · exact balanced.restless

theorem register (balanced : Balanced due held lost agenda) (node : Nat) (trigger : Trigger) :
    Balanced due (⟨node, agenda.nextId, trigger.isOnce⟩ :: held) lost
      (agenda.register node trigger).2 := by
  constructor
  · -- the wakes of the batch are for older tasks
    have waits : Handle.waits due ⟨node, agenda.nextId, trigger.isOnce⟩ = true :=
      Handle.waits_of_new balanced.past
    simp only [Agenda.register, List.map_append, List.map_cons, List.map_nil, List.filter_cons,
      waits, if_true, List.cons_append]
    exact List.perm_append_singleton _ _ |>.trans (balanced.posted.cons _)
  · refine List.nodup_cons.mpr ⟨?_, balanced.distinct⟩
    intro member
    obtain ⟨other, member, same⟩ := List.mem_map.mp member
    exact Nat.lt_irrefl _ (same ▸ balanced.known other member)
  · intro other member
    rcases List.mem_cons.mp member with rfl | member
    · exact Nat.lt_succ_self _
    · exact Nat.lt_succ_of_lt (balanced.known other member)
  · intro wake member
    exact Nat.lt_succ_of_lt (balanced.past wake member)
  · exact balanced.restless

theorem lose {handle : Handle} (balanced : Balanced due (handle :: held) lost agenda)
    (tick : handle.once = false) : Balanced due held (handle :: lost) agenda := by
  have moved : (handle :: (held ++ lost)).Perm (held ++ handle :: lost) := List.perm_middle.symm
  constructor
  · have posted := balanced.posted
    rw [List.filter_cons_of_pos (Handle.waits_of_tick tick due)] at posted
    exact posted.trans List.perm_middle.symm
  · exact (moved.map _).nodup_iff.mp balanced.distinct
  · intro other member
    exact balanced.known other (moved.mem_iff.mpr member)
  · exact balanced.past
  · intro other member
    rcases List.mem_cons.mp member with rfl | member
    · exact tick
    · exact balanced.restless other member

theorem deliver {wake : Wake} (balanced : Balanced (wake :: due) held lost agenda) :
    Balanced due (held.filter (Handle.waits [wake])) lost agenda := by
  have fewer : (held.filter (Handle.waits [wake]) ++ lost).Sublist (held ++ lost) :=
    List.filter_sublist.append (List.Sublist.refl _)
  constructor
  · have posted := balanced.posted
    have split : Handle.waits (wake :: due) =
        fun handle => handle.waits due && handle.waits [wake] := by
      funext handle
      rw [Handle.waits_cons, Bool.and_comm]
    rw [split, ← List.filter_filter] at posted
    exact posted
  · exact balanced.distinct.sublist (fewer.map _)
  · intro handle member
    exact balanced.known handle (fewer.subset member)
  · intro other member
    exact balanced.past other (List.mem_cons_of_mem _ member)
  · exact balanced.restless

theorem advance (balanced : Balanced [] held lost agenda) (delta : Nat) :
    Balanced (agenda.advance delta).1 held lost (agenda.advance delta).2 := by
  have posted : (agenda.tasks.map Task.handle).Perm (held ++ lost) := by
    simpa [funext Handle.waits_nil] using balanced.posted
  have ids : (agenda.tasks.map Task.id).Nodup := by
    have distinct := (posted.map Handle.task).nodup_iff.mpr balanced.distinct
    rwa [List.map_map] at distinct
  constructor
  · have kept := posted.filter (Handle.waits (agenda.advance delta).1)
    -- what was lost recurs on every tick, so the clock takes none of it away
    have lostKept : lost.filter (Handle.waits (agenda.advance delta).1) = lost := by
      apply List.filter_eq_self.mpr
      intro handle member
      exact Handle.waits_of_tick (balanced.restless handle member) _
    have staying : agenda.tasks.filter (·.trigger.stays (agenda.now + delta)) =
        agenda.tasks.filter (Handle.waits (agenda.advance delta).1 ∘ Task.handle) :=
      List.filter_congr fun task member => stays_eq_waits ids delta member
    rw [List.filter_append, lostKept, List.filter_map, ← staying] at kept
    exact kept
  · exact balanced.distinct
  · exact balanced.known
  · intro wake member
    obtain ⟨task, fired, rfl⟩ := List.mem_map.mp member
    have there := List.mem_map_of_mem (f := Task.handle) (List.mem_of_mem_filter fired)
    exact balanced.known _ (posted.mem_iff.mp there)
  · exact balanced.restless

variable {H : Host} {cx : Context H}

theorem cancel_held (label : Label) (once : Bool) (task : Option Nat)
    (balanced : Balanced due (label.holds once task ++ held) lost cx.agenda) :
    Balanced due held lost (cx.cancel task).agenda := by
  cases task with
  | none => exact balanced
  | some task => exact balanced.cancel

theorem lose_held (label : Label) (task : Option Nat)
    (balanced : Balanced due (label.holds false task ++ held) lost agenda) :
    Balanced due held (label.holds false task ++ lost) agenda := by
  cases task with
  | none => exact balanced
  | some task => exact balanced.lose rfl

theorem everyTick (balanced : Balanced due held lost cx.agenda) (label : Label) :
    Balanced due (label.holds false (some (cx.everyTick label).1) ++ held) lost
      (cx.everyTick label).2.agenda :=
  balanced.register label.id .everyTick

theorem after (balanced : Balanced due held lost cx.agenda) (label : Label) (delay : Nat) :
    Balanced due (label.holds true (some (cx.after label delay).1) ++ held) lost
      (cx.after label delay).2.agenda := by
  have late : Balanced due held lost
      { cx.agenda with overrun := cx.agenda.overrun || lastInstant < cx.agenda.now + delay } :=
    ⟨balanced.posted, balanced.distinct, balanced.known, balanced.past, balanced.restless⟩
  exact late.register label.id (.deadline (cx.agenda.now + delay))

theorem rearm (balanced : Balanced due held lost cx.agenda) (label : Label) (mode : PollMode)
    (period : Nat) (halts : Bool) :
    Balanced due (label.holds true (rearm label mode period halts cx).1 ++ held) lost
      (rearm label mode period halts cx).2.agenda := by
  unfold ReactiveTree.rearm
  split
  · exact balanced
  · exact balanced.after label period

end Balanced

/-! The rules of the nodes, each between its own handle and the handles of everything else. -/

/-- The handle that a repeater forgets when it puts the next activation of its child, which ended
with the report, in the place of the one it holds. -/
def overwritten (label : Label) (deferred : Option Nat) (report : Report) : List Handle :=
  if report.terminal?.isSome then label.holds false deferred else []

@[simp] theorem overwritten_none (label : Label) (report : Report) :
    overwritten label none report = [] := by
  unfold overwritten
  split <;> rfl

section Rules

variable {H : Host} {σ : Type} {due : List Wake} {held lost : List Handle}

theorem stepAction_balanced (label : Label) (phase : Phase) (status : Status) (unit : H.Action)
    (task : Option Nat) (cx : Context H)
    (balanced : Balanced due (label.holds false task ++ held) lost cx.agenda) :
    Balanced due (label.holds false (stepAction label phase status unit task cx).task ++ held) lost
      (stepAction label phase status unit task cx).cx.agenda := by
  have called : Balanced due (label.holds false task ++ held) lost
      (cx.act label phase unit).cx.agenda := balanced
  unfold stepAction
  dsimp only
  split
  · exact called
  · exact called.cancel_held label false task
  · exact called.cancel_held label false task

theorem stepAction_idle (label : Label) (phase : Phase) (status : Status) (unit : H.Action)
    (cx : Context H) : (stepAction label phase status unit none cx).task = none := by
  unfold stepAction
  dsimp only
  split <;> rfl

theorem startAction_balanced (label : Label) (unit : H.Action) (task : Option Nat) (cx : Context H)
    (balanced : Balanced due (label.holds false task ++ held) lost cx.agenda) :
    Balanced due (label.holds false (startAction label unit task cx).task ++ held) lost
      (startAction label unit task cx).cx.agenda := by
  -- the old task is gone before the first phase, so the phases have none to give up
  have step {phase : Phase} {unit : H.Action} {cx : Context H}
      (balanced : Balanced due held lost cx.agenda) :
      Balanced due held lost (stepAction label phase .running unit none cx).cx.agenda := by
    have stepped := stepAction_balanced label phase .running unit none cx balanced
    rwa [stepAction_idle] at stepped
  have given : Balanced due held lost ((cx.cancel task).announce label .actionNode .running).agenda :=
    balanced.cancel_held label false task
  unfold startAction
  dsimp only
  split
  · split
    · exact (step (step given)).everyTick label
    · rw [stepAction_idle]
      exact step (step given)
  · rw [stepAction_idle]
    exact step given

variable (handles : σ → List Handle) {activate : σ → Context H → Turn H σ}
  {halt : σ → Context H → Stopped H σ}

theorem repeatChild_balanced (label : Label) (deferred : Option Nat)
    (activates : ∀ kid cx,
      Balanced due (handles kid ++ (label.holds false deferred ++ held)) lost cx.agenda →
      Balanced due (handles (activate kid cx).live ++ (label.holds false deferred ++ held)) lost
        (activate kid cx).cx.agenda)
    (kid : σ) (cx : Context H)
    (balanced : Balanced due (label.holds false deferred ++ (handles kid ++ held)) lost cx.agenda) :
    let turn := repeatChild label activate deferred kid cx
    Balanced due (label.holds false turn.deferred ++ (handles turn.kid ++ held))
      (overwritten label deferred (activate kid cx).report ++ lost) turn.cx.agenda := by
  have active := (activates kid cx balanced.swap).swap
  unfold repeatChild overwritten
  dsimp only
  split
  · rename_i ended
    rw [ended]
    exact (active.lose_held label deferred).everyTick label
  · rename_i lasting
    rw [lasting]
    exact active

theorem cycleChild_balanced
    (activates : ∀ kid cx, Balanced due (handles kid ++ held) lost cx.agenda →
      Balanced due (handles (activate kid cx).live ++ held) lost (activate kid cx).cx.agenda)
    (label : Label) (period : Nat) (kid : σ) (cx : Context H)
    (balanced : Balanced due (handles kid ++ held) lost cx.agenda) :
    let turn := cycleChild label period activate kid cx
    Balanced due (label.holds true turn.deferred ++ (handles turn.kid ++ held)) lost
      turn.cx.agenda :=
  (activates kid (cx.announce label .loop .running) balanced).after label period

theorem pollGate_balanced
    (activates : ∀ kid cx, Balanced due (handles kid ++ held) lost cx.agenda →
      Balanced due (handles (activate kid cx).live ++ held) lost (activate kid cx).cx.agenda)
    (halts : ∀ kid cx, Balanced due (handles kid ++ held) lost cx.agenda →
      Balanced due (handles (halt kid cx).live ++ held) lost (halt kid cx).cx.agenda)
    (label : Label) (mode : PollMode) (period : Nat) (status : Status) (unit : H.Condition)
    (last : Status) (kid : σ) (cx : Context H)
    (balanced : Balanced due (handles kid ++ held) lost cx.agenda) :
    let polled := pollGate label mode period activate halt status unit last kid cx
    Balanced due (label.holds true polled.timer ++ (handles polled.kid ++ held)) lost
      polled.cx.agenda := by
  match answer : (cx.poll label unit).answer with
  | none =>
    rw [pollGate_faulted answer]
    exact halts kid (cx.poll label unit).cx balanced
  | some true =>
    by_cases succeeded : last = .success
    · rw [pollGate_content answer succeeded]
      have polled : Balanced due (handles kid ++ held) lost (cx.poll label unit).cx.agenda := balanced
      exact polled.rearm label mode period false
    · rw [pollGate_opens answer succeeded]
      have active := activates kid ((cx.poll label unit).cx.announce label .loopConditionNode .running)
        balanced
      rw [← Context.announceAll_agenda] at active
      exact active.rearm label mode period _
  | some false =>
    by_cases failed : last = .failure
    · rw [pollGate_closed answer failed]
      have polled : Balanced due (handles kid ++ held) lost (cx.poll label unit).cx.agenda := balanced
      exact polled.rearm label mode period false
    · rw [pollGate_closes answer failed]
      have halted := halts kid ((cx.poll label unit).cx.announce label .loopConditionNode .failure)
        balanced
      exact halted.rearm label mode period _

end Rules

end ReactiveTree
