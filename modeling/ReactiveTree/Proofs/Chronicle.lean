import Mathlib.Data.List.Range
import ReactiveTree.Proofs.Ledger

/-!
An agenda as its users know it. They remember what they asked and what it answered, and that tells
them which tasks wait: the ones they asked for, less those they cancelled since and less the timers
that were handed out since. An agenda that was new at first holds just these tasks, so its users can
tell beforehand what it will hand out.
-/

namespace ReactiveTree

def Task.wake (task : Task) : Wake := ⟨task.node, task.id⟩

namespace Agenda

inductive Request where
  | everyTick (node : Nat)
  | after (node delay : Nat)
  | cancel (task : Nat)
  | advance (delta : Nat)
  deriving DecidableEq, Repr

/-- What was asked of an agenda, with the answer to it. -/
inductive Entry where
  | everyTick (node task : Nat)
  | after (node delay task : Nat)
  | cancel (task : Nat)
  | advance (delta : Nat) (wakes : List Wake)
  deriving DecidableEq, Repr

def answer (agenda : Agenda) : Request → Entry × Agenda
  | .everyTick node =>
    let (task, agenda) := agenda.everyTick node
    (.everyTick node task, agenda)
  | .after node delay =>
    let (task, agenda) := agenda.after node delay
    (.after node delay task, agenda)
  | .cancel task => (.cancel task, agenda.cancel task)
  | .advance delta =>
    let (wakes, agenda) := agenda.advance delta
    (.advance delta wakes, agenda)

/-- The requests in turn, with what the users remember of them, the first one first. -/
def serve (agenda : Agenda) : List Request → List Entry × Agenda
  | [] => ([], agenda)
  | request :: rest =>
    let (entry, agenda) := agenda.answer request
    let (entries, agenda) := agenda.serve rest
    (entry :: entries, agenda)

namespace Entry

def lapse : Entry → Nat
  | .advance delta _ => delta
  | _ => 0

def asked (now : Nat) : Entry → Option Task
  | .everyTick node task => some ⟨task, node, .everyTick⟩
  | .after node delay task => some ⟨task, node, .deadline (now + delay)⟩
  | .cancel _ | .advance _ _ => none

/-- Neither cancels the task nor hands it out for the last time. -/
def spares (task : Task) : Entry → Bool
  | .cancel id => id ≠ task.id
  | .advance _ wakes => task.handle.waits wakes
  | .everyTick _ _ | .after _ _ _ => true

end Entry

/-- A task that was asked for, with what came after. -/
structure Registration where
  task : Task
  later : List Entry

def registrations (now : Nat) : List Entry → List Registration
  | [] => []
  | entry :: later =>
    ((entry.asked now).map (⟨·, later⟩)).toList ++ registrations (now + entry.lapse) later

def clock : List Entry → Nat
  | [] => 0
  | entry :: later => entry.lapse + clock later

def Registration.waits (registration : Registration) : Bool :=
  registration.later.all (Entry.spares registration.task)

def waiting (past : List Entry) : List Task :=
  ((registrations 0 past).filter Registration.waits).map Registration.task

section Entries

variable (past : List Entry) (entry : Entry)

theorem registrations_snoc (now : Nat) : registrations now (past ++ [entry]) =
    (registrations now past).map (fun registration =>
      ⟨registration.task, registration.later ++ [entry]⟩) ++
    ((entry.asked (now + clock past)).map (⟨·, []⟩)).toList := by
  induction past generalizing now with
  | nil => simp [registrations, clock]
  | cons first rest ih =>
    have time : now + first.lapse + clock rest = now + clock (first :: rest) :=
      Nat.add_assoc now _ _
    rw [List.cons_append, registrations, ih, time, registrations, List.map_append,
      List.append_assoc]
    cases first.asked now <;> rfl

theorem registrations_ids : (registrations 0 (past ++ [entry])).map (·.task.id) =
    (registrations 0 past).map (·.task.id) ++ ((entry.asked (clock past)).map Task.id).toList := by
  rw [registrations_snoc, Nat.zero_add, List.map_append, List.map_map]
  cases entry.asked (clock past) <;> rfl

theorem clock_snoc : clock (past ++ [entry]) = clock past + entry.lapse := by
  induction past with
  | nil => exact Nat.add_comm _ _
  | cons first rest ih => rw [List.cons_append, clock, ih, clock, Nat.add_assoc]

theorem waiting_snoc : waiting (past ++ [entry]) =
    (waiting past).filter (Entry.spares · entry) ++ (entry.asked (clock past)).toList := by
  have spared (registration : Registration) :
      Registration.waits ⟨registration.task, registration.later ++ [entry]⟩ =
        (Entry.spares registration.task entry && registration.waits) := by
    simp [Registration.waits, List.all_append, Bool.and_comm]
  rw [waiting, registrations_snoc, List.filter_append, List.map_append, Nat.zero_add]
  congr 1
  · simp only [waiting, List.filter_map, List.map_map, List.filter_filter, Function.comp_def,
      spared]
  · cases entry.asked (clock past) <;> rfl

end Entries

variable {past : List Entry} {agenda : Agenda}

theorem answer_now (agenda : Agenda) (request : Request) :
    (agenda.answer request).2.now = agenda.now + (agenda.answer request).1.lapse := by
  cases request <;> rfl

theorem answer_numbers (agenda : Agenda) (request : Request) :
    List.range (agenda.answer request).2.nextId = List.range agenda.nextId ++
      (((agenda.answer request).1.asked agenda.now).map Task.id).toList := by
  cases request with
  | everyTick node => exact List.range_succ
  | after node delay => exact List.range_succ
  | cancel task => exact (List.append_nil _).symm
  | advance delta => exact (List.append_nil _).symm

theorem answer_tasks (distinct : (agenda.tasks.map Task.id).Nodup) (request : Request) :
    (agenda.answer request).2.tasks =
      agenda.tasks.filter (Entry.spares · (agenda.answer request).1) ++
        ((agenda.answer request).1.asked agenda.now).toList := by
  cases request with
  | everyTick node | after node delay =>
    exact congrArg (· ++ _) (List.filter_eq_self.mpr fun _ _ => rfl).symm
  | cancel task =>
    refine Eq.trans ?_ (List.append_nil _).symm
    apply List.filter_congr
    intro other _
    simp [answer, Entry.spares, eq_comm]
  | advance delta =>
    refine Eq.trans ?_ (List.append_nil _).symm
    apply List.filter_congr
    intro task member
    exact stays_eq_waits distinct delta member

theorem cancel_eq_self {task : Nat} :
    agenda.cancel task = agenda ↔ task ∉ agenda.tasks.map Task.id := by
  have kept : agenda.cancel task = agenda ↔ agenda.tasks.filter (·.id ≠ task) = agenda.tasks :=
    ⟨congrArg Agenda.tasks, congrArg fun tasks => { agenda with tasks }⟩
  rw [kept, List.filter_eq_self]
  simp

/-- The agenda agrees with what its users remember. -/
structure Chronicled (past : List Entry) (agenda : Agenda) : Prop where
  now : agenda.now = clock past
  given : (registrations 0 past).map (·.task.id) = List.range agenda.nextId
  waiting : agenda.tasks = waiting past

theorem Chronicled.ascending (chronicled : Chronicled past agenda) :
    (agenda.tasks.map Task.id).Pairwise (· < ·) := by
  have among : (agenda.tasks.map Task.id).Sublist (List.range agenda.nextId) := by
    rw [← chronicled.given, chronicled.waiting, Agenda.waiting, List.map_map]
    exact List.filter_sublist.map _
  exact List.pairwise_lt_range.sublist among

theorem Chronicled.answer (chronicled : Chronicled past agenda) (request : Request) :
    Chronicled (past ++ [(agenda.answer request).1]) (agenda.answer request).2 := by
  have distinct : (agenda.tasks.map Task.id).Nodup := chronicled.ascending.imp Nat.ne_of_lt
  constructor
  · rw [answer_now, clock_snoc, chronicled.now]
  · rw [registrations_ids, answer_numbers, chronicled.given, chronicled.now]
  · rw [answer_tasks distinct, waiting_snoc, chronicled.waiting, chronicled.now]

theorem Chronicled.serve (chronicled : Chronicled past agenda) (requests : List Request) :
    Chronicled (past ++ (agenda.serve requests).1) (agenda.serve requests).2 := by
  induction requests generalizing past agenda with
  | nil => simpa [Agenda.serve] using chronicled
  | cons request rest ih =>
    have answered := ih (chronicled.answer request)
    rwa [List.append_assoc] at answered

/-- Whatever was asked of a new agenda, the next advance hands out the waiting tasks that are due,
each to the node that asked for it and in the order in which they were asked for. The tasks that
wait are the pending ones, a cancel does nothing just if it is for no such task, and no number is
given twice. -/
theorem advance_of_chronicle (requests : List Request) :
    let past := (serve {} requests).1
    let agenda := (serve {} requests).2
    (∀ delta, let wakes := (agenda.advance delta).1
      wakes = ((waiting past).filter fun task =>
        task.trigger.isDue (clock past + delta)).map Task.wake ∧
      (wakes.map Wake.task).Pairwise (· < ·)) ∧
    agenda.pending = (waiting past).length ∧
    (∀ task, agenda.cancel task = agenda ↔ task ∉ (waiting past).map Task.id) ∧
    ((registrations 0 past).map (·.task.id)).Pairwise (· < ·) := by
  intro past agenda
  have start : Chronicled [] {} := ⟨rfl, rfl, rfl⟩
  have chronicled : Chronicled past agenda := start.serve requests
  refine ⟨?_, congrArg List.length chronicled.waiting, ?_, ?_⟩
  · intro delta wakes
    have due : wakes = ((waiting past).filter fun task =>
        task.trigger.isDue (clock past + delta)).map Task.wake := by
      rw [← chronicled.waiting, ← chronicled.now]
      rfl
    refine ⟨due, ?_⟩
    rw [due, List.map_map, ← chronicled.waiting]
    exact chronicled.ascending.sublist (List.filter_sublist.map Task.id)
  · intro task
    rw [← chronicled.waiting]
    exact cancel_eq_self
  · rw [chronicled.given]
    exact List.pairwise_lt_range

/-- A timer without delay is due with a task for every tick, and does not come back. -/
example :
    (serve {} [.everyTick 5, .after 2 0, .advance 100, .advance 100, .cancel 0, .advance 0]).1 =
      [.everyTick 5 0, .after 2 0 1, .advance 100 [⟨5, 0⟩, ⟨2, 1⟩], .advance 100 [⟨5, 0⟩],
        .cancel 0, .advance 0 []] := by
  decide

end Agenda

end ReactiveTree
