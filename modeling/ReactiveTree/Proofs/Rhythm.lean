import ReactiveTree.Proofs.Pending
import ReactiveTree.Proofs.Staleness

/-!
Nodes with a rhythm. Such a node runs until it is stopped, and while it runs it holds a task; when
the task falls due the node has a beat and holds a new one. So a tick brings one beat if the task
falls due in it, and none if it does not, whatever the other nodes do. A node that is stopped in a
tick before the wake comes to it has no beat, and starts anew if it is activated again.
-/

namespace ReactiveTree

variable {H : Host} {σ : Type}

/-- Where a node comes to when it is activated, and with each beat from there, by the clock. In a
beat a node that is loud tells observers again that it runs. -/
structure Rhythm (σ : Type) where
  first : Nat → σ
  next : Nat → σ → σ
  loud : Bool

namespace Rhythm

variable (rhythm : Rhythm σ)

def beat : Report :=
  if rhythm.loud then [.running] else []

/-- What a node tells observers in a call, and where it stands before and after, if it runs. A beat
that is due comes in the call, unless the node is stopped before. -/
inductive Turns (now : Nat) : Option σ → Bool → Report → Option σ → Prop
  | rests {place : Option σ} : Turns now place false [] place
  | begins {told : Report} {after : Option σ}
      (later : Turns now (some (rhythm.first now)) false told after) :
      Turns now none false (.running :: told) after
  | beats {place : σ} {told : Report} {after : Option σ}
      (later : Turns now (some (rhythm.next now place)) false told after) :
      Turns now (some place) true (rhythm.beat ++ told) after
  | stops {place : σ} {due : Bool} {told : Report} {after : Option σ}
      (later : Turns now none false told after) :
      Turns now (some place) due (.waiting :: told) after

variable {rhythm}

namespace Turns

variable {now : Nat} {place : σ} {before after : Option σ} {due : Bool} {told : Report}

theorem begin (turns : rhythm.Turns now before due told none) :
    rhythm.Turns now before due (told ++ [.running]) (some (rhythm.first now)) := by
  generalize rest : none = after at turns
  induction turns with
  | rests => exact rest ▸ .begins .rests
  | begins _ ih => exact .begins (ih rest)
  | beats _ ih =>
    rw [List.append_assoc]
    exact .beats (ih rest)
  | stops _ ih => exact .stops (ih rest)

theorem stop (turns : rhythm.Turns now before due told (some place)) :
    rhythm.Turns now before due (told ++ [.waiting]) none := by
  generalize runs : some place = after at turns
  induction turns with
  | rests => exact runs ▸ .stops .rests
  | begins _ ih => exact .begins (ih runs)
  | beats _ ih =>
    rw [List.append_assoc]
    exact .beats (ih runs)
  | stops _ ih => exact .stops (ih runs)

theorem miss (turns : rhythm.Turns now (some place) false told after) (moved : told ≠ []) :
    rhythm.Turns now (some place) true told after := by
  cases turns with
  | rests => exact absurd rfl moved
  | stops later => exact .stops later

theorem of_undisturbed (turns : rhythm.Turns now (some place) due told after)
    (goes : .waiting ∉ told) : told = (if due then rhythm.beat else []) ∧
      after = some (if due then rhythm.next now place else place) := by
  cases turns with
  | rests => exact ⟨rfl, rfl⟩
  | beats later =>
    cases later with
    | rests => exact ⟨List.append_nil _, rfl⟩
    | stops => exact absurd (List.mem_append_right _ List.mem_cons_self) goes
  | stops => exact absurd List.mem_cons_self goes

/-- When the last thing told is that the node runs, it stands where it came to then, and did not
tell the same right before. -/
theorem of_cons_running (turns : rhythm.Turns now (some place) false told after) {early : Report}
    (whole : early ++ [.running] = .running :: told) {ends : Prop}
    (later : ∀ more, more ++ [.running] = told → ends ∧ more.getLast? ≠ some .running) :
    (after = some place ∨ ends) ∧ early.getLast? ≠ some .running := by
  cases early with
  | nil =>
    obtain rfl : told = [] := (List.cons_eq_cons.mp whole).2.symm
    cases turns
    exact ⟨.inl rfl, nofun⟩
  | cons first more =>
    obtain ⟨rfl, rest⟩ := List.cons_eq_cons.mp whole
    obtain ⟨stays, apart⟩ := later more rest
    refine ⟨.inr stays, ?_⟩
    cases more with
    | nil => subst rest; cases turns
    | cons => rwa [List.getLast?_cons_cons]

theorem of_running (turns : rhythm.Turns now before due (told ++ [.running]) after) :
    (after = some (rhythm.first now) ∨ due = true ∧ rhythm.loud = true ∧
      ∃ place, after = some (rhythm.next now place)) ∧
    told.getLast? ≠ some .running := by
  generalize whole : told ++ [.running] = word at turns
  induction turns generalizing told with
  | rests => exact absurd whole (List.append_ne_nil_of_right_ne_nil _ (List.cons_ne_nil _ _))
  | begins later ih =>
    obtain ⟨here | stays | beaten, apart⟩ := later.of_cons_running whole fun _ same => ih same
    · exact ⟨.inl here, apart⟩
    · exact ⟨.inl stays, apart⟩
    · exact nomatch beaten.1
  | beats later ih =>
    cases loud : rhythm.loud with
    | false =>
      rw [beat, loud] at whole
      obtain ⟨stays | beaten, apart⟩ := ih whole
      · exact ⟨.inl stays, apart⟩
      · exact nomatch beaten.1
    | true =>
      rw [beat, loud] at whole
      obtain ⟨here | stays | beaten, apart⟩ := later.of_cons_running whole fun _ same => ih same
      · exact ⟨.inr ⟨rfl, rfl, _, here⟩, apart⟩
      · exact ⟨.inl stays, apart⟩
      · exact nomatch beaten.1
  | stops later ih =>
    cases told with
    | nil => cases whole
    | cons first more =>
      obtain ⟨rfl, rest⟩ := List.cons_eq_cons.mp whole
      obtain ⟨stays | beaten, apart⟩ := ih rest
      · refine ⟨.inl stays, ?_⟩
        cases more with
        | nil => nofun
        | cons => rwa [List.getLast?_cons_cons]
      · exact nomatch beaten.1

end Turns

/-- The calls of a node keep the rhythm: `stands` says of the node where it stands, whatever the
nodes with other ids do. -/
structure Rules (rhythm : Rhythm σ) {tree : Tree H} (ids : List Nat)
    (stands : Live H tree → Context H → Option σ → Prop) : Prop where
  quiet : ∀ {live cx cx' place}, stands live cx place → cx'.amid ids = cx.amid ids →
    cx.agenda.Grows cx'.agenda → stands live cx' place
  advance : ∀ {live cx place} (delta : Nat), stands live cx place →
    stands live { cx with agenda := (cx.agenda.advance delta).2 } place
  rests : ∀ {live cx}, stands live cx none → live.task? = none ∧ ¬ live.isRunning
  runs : ∀ {live cx place}, stands live cx (some place) → live.isRunning
  begins : ∀ {live cx}, stands live cx none →
    let turn := evaluate tree live cx
    stands turn.live turn.cx (some (rhythm.first cx.agenda.now)) ∧
      turn.cx.shown tree.id = cx.shown tree.id ++ [.running]
  beats : ∀ {live cx place task}, stands live cx (some place) → live.task? = some task →
    let turn := resume ⟨tree.id, task⟩ tree live cx
    stands turn.live turn.cx (some (rhythm.next cx.agenda.now place)) ∧
      turn.cx.shown tree.id = cx.shown tree.id ++ rhythm.beat ∧
      Recent cx.agenda.nextId turn.live.task?
  misses : ∀ {live cx place} {wake : Wake}, stands live cx place →
    (wake.node = tree.id → live.task? ≠ some wake.task) →
    let turn := resume wake tree live cx
    stands turn.live turn.cx place ∧ turn.cx.shown tree.id = cx.shown tree.id ∧
      turn.live.task? = live.task?
  stops : ∀ {live cx place}, stands live cx place →
    let stopped := stop tree live cx
    stands stopped.live stopped.cx none ∧
      stopped.cx.shown tree.id = cx.shown tree.id ++ if place.isSome then [.waiting] else []

def Of (tree : Tree H) (holds : Live H tree → Context H → Prop) (part : Part H)
    (cx : Context H) : Prop :=
  ∃ live, part = ⟨tree, live⟩ ∧ holds live cx

/-- The node in a call that found the agenda `start`, when observers had been told `past` of it, it
stood at `before` and held the task `held`. By `due` the wake for that task has come. -/
structure Calls (rhythm : Rhythm σ) {tree : Tree H}
    (stands : Live H tree → Context H → Option σ → Prop) (start : Agenda) (past : Report)
    (before : Option σ) (held : Option Nat) (due : Bool) (live : Live H tree) (cx : Context H) :
    Prop where
  grows : start.Grows cx.agenda
  turns : ∃ told after, cx.shown tree.id = past ++ told ∧
    rhythm.Turns start.now before due told after ∧ stands live cx after ∧
    (told = [] ∧ due = false ∧ live.task? = held ∨
      (told ≠ [] ∨ due = true) ∧ Recent start.nextId live.task?)

section Calling

variable {tree : Tree H} {ids : List Nat} {stands : Live H tree → Context H → Option σ → Prop}
  (rules : rhythm.Rules ids stands) {start : Agenda} {past : Report} {before : Option σ}
  {held : Option Nat} {due : Bool} {live : Live H tree} {cx cx' : Context H}

include rules

namespace Calls

theorem quiet (calls : rhythm.Calls stands start past before held due live cx)
    (own : tree.id ∈ ids) (same : cx'.amid ids = cx.amid ids)
    (grows : cx.agenda.Grows cx'.agenda) :
    rhythm.Calls stands start past before held due live cx' := by
  obtain ⟨told, after, shown, turns, kept, recent⟩ := calls.turns
  exact ⟨calls.grows.trans grows, told, after, (Context.shown_of_amid own same).trans shown, turns,
    rules.quiet kept same grows, recent⟩

theorem activate (calls : rhythm.Calls stands start past before held due live cx) :
    let turn := evaluate tree live cx
    rhythm.Calls stands start past before held due turn.live turn.cx := by
  intro turn
  obtain ⟨told, after, shown, turns, kept, recent⟩ := calls.turns
  cases after with
  | some place =>
    have still : turn = ⟨live, cx, []⟩ := evaluate_of_running live cx (rules.runs kept)
    rwa [still]
  | none =>
    obtain ⟨begun, said⟩ := rules.begins kept
    have new := evaluate_recent live cx (rules.rests kept).2
    refine ⟨calls.grows.trans (visit_grows live cx .evaluate), told ++ [.running], _, ?_,
      turns.begin, ?_, .inr ⟨.inl ?_, ?_⟩⟩
    · rw [said, shown, List.append_assoc]
    · rwa [← calls.grows.now]
    · exact List.append_ne_nil_of_right_ne_nil _ (List.cons_ne_nil _ _)
    · exact fun task taken => Nat.le_trans calls.grows.nextId (new task taken)

theorem halt (calls : rhythm.Calls stands start past before held due live cx) :
    let stopped := stop tree live cx
    rhythm.Calls stands start past before held due stopped.live stopped.cx := by
  intro stopped
  obtain ⟨told, after, shown, turns, kept, recent⟩ := calls.turns
  obtain ⟨ended, said⟩ := rules.stops kept
  have grows := calls.grows.trans (visit_grows live cx .stop)
  have gone : stopped.live.task? = none := stop_task live cx
  rw [shown] at said
  cases after with
  | none =>
    refine ⟨grows, told, none, said.trans (List.append_nil _), turns, ended, ?_⟩
    rwa [gone, ← (rules.rests kept).1]
  | some place =>
    refine ⟨grows, told ++ [.waiting], none, said.trans (List.append_assoc _ _ _), turns.stop,
      ended, .inr ⟨.inl ?_, recent_none gone⟩⟩
    exact List.append_ne_nil_of_right_ne_nil _ (List.cons_ne_nil _ _)

theorem miss {wake : Wake} (calls : rhythm.Calls stands start past before held due live cx)
    (other : wake.node = tree.id → live.task? ≠ some wake.task) :
    let turn := resume wake tree live cx
    rhythm.Calls stands start past before held due turn.live turn.cx := by
  intro turn
  obtain ⟨told, after, shown, turns, kept, recent⟩ := calls.turns
  obtain ⟨still, said, task⟩ := rules.misses kept other
  refine ⟨calls.grows.trans (visit_grows live cx (.resume wake)), told, after, said.trans shown,
    turns, still, ?_⟩
  rwa [task]

end Calls

theorem calls_follows (own : tree.id ∈ ids) : Follows tree.id ids
    (Of tree (rhythm.Calls stands start past before held due)) where
  quiet := by
    rintro part cx cx' ⟨live, rfl, calls⟩ same grows
    exact ⟨live, rfl, calls.quiet rules own same grows⟩
  activate := by
    rintro other live cx _ _ ⟨live, same, calls⟩
    cases same
    exact ⟨_, rfl, calls.activate rules⟩
  halt := by
    rintro other live cx _ _ ⟨live, same, calls⟩
    cases same
    exact ⟨_, rfl, calls.halt rules⟩

/-- The other wakes of a batch are for other tasks, and older than what is registered in it. -/
theorem calls_misses {wake : Wake} (old : wake.task < start.nextId)
    (other : held ≠ some wake.task) : Delivers tree.id wake
      (Of tree (rhythm.Calls stands start past before held due))
      (Of tree (rhythm.Calls stands start past before held due)) where
  heard := by
    rintro other live cx _ _ ⟨live, same, calls⟩
    cases same
    refine ⟨_, rfl, calls.miss rules fun _ found => ?_⟩
    obtain ⟨told, after, _, _, _, ⟨_, _, rfl⟩ | ⟨_, recent⟩⟩ := calls.turns
    · exact other found
    · exact Nat.not_le.mpr old (recent wake.task found)
  unheard kept _ _ := kept

theorem calls_beats {task : Nat} {place : σ} (old : task < start.nextId) :
    Delivers tree.id ⟨tree.id, task⟩
      (Of tree (rhythm.Calls stands start past (some place) (some task) false))
      (Of tree (rhythm.Calls stands start past (some place) (some task) true)) where
  heard := by
    rintro other live cx _ _ ⟨live, same, calls⟩
    cases same
    refine ⟨_, rfl, ?_⟩
    obtain ⟨told, after, shown, turns, kept, ⟨rfl, _, holds⟩ | ⟨moved, recent⟩⟩ := calls.turns
    · obtain rfl : after = some place := by cases turns; rfl
      obtain ⟨beaten, said, recent⟩ := rules.beats kept holds
      rw [List.append_nil] at shown
      refine ⟨calls.grows.trans (visit_grows live cx (.resume _)), rhythm.beat, _, said.trans ?_,
        ?_, beaten, .inr ⟨.inr rfl, ?_⟩⟩
      · rw [shown]
      · rw [← calls.grows.now, ← List.append_nil rhythm.beat]
        exact .beats .rests
      · exact fun task taken => Nat.le_trans calls.grows.nextId (recent task taken)
    · -- the node was stopped in this call before its wake came, and what it holds by now is newer
      have moved : told ≠ [] := moved.resolve_right Bool.false_ne_true
      have missed : rhythm.Calls stands start past (some place) (some task) true live cx :=
        ⟨calls.grows, told, after, shown, turns.miss moved, kept, .inr ⟨.inl moved, recent⟩⟩
      exact missed.miss rules fun _ found => Nat.not_le.mpr old (recent task found)
  unheard := by
    rintro part cx _ own outside
    exact absurd (own ▸ id_mem_labels part.tree) outside

end Calling

end Rhythm

def Visit.told {tree : Tree H} (visit : Visit H tree) : Report :=
  (visit.turn.cx.shown tree.id).drop (visit.cx.shown tree.id).length

theorem Visit.told_eq {tree : Tree H} {visit : Visit H tree} {told : Report}
    (shown : visit.turn.cx.shown tree.id = visit.cx.shown tree.id ++ told) : visit.told = told := by
  rw [Visit.told, shown, List.drop_left]

def Command.lapse : Command H → Nat
  | .tick delta => delta
  | _ => 0

namespace Session

variable {tree node : Tree H} {session : Session H tree}

def tells (id : Nat) (session : Session H tree) (command : Command H) : Report :=
  ((session.perform command).cx.shown id).drop (session.cx.shown id).length

/-- What observers are told of a node in each call of a run. -/
def tellings (id : Nat) : List (Command H) → Session H tree → List Report
  | [], _ => []
  | command :: rest, session =>
    session.tells id command :: tellings id rest (session.perform command)

section Telling

variable (id : Nat)

theorem perform_shown (command : Command H) : ∃ more,
    (session.perform command).cx.shown id = session.cx.shown id ++ more := by
  have called (live : Live H tree) (cx : Context H) (summons : Summons) : ∃ more,
      (live.visit cx summons).cx.shown id = cx.shown id ++ more := by
    obtain ⟨more, told, _⟩ := visit_told live cx summons id
    exact ⟨_, (congrArg (List.filterMap Event.status?) told).trans List.filterMap_append⟩
  cases command with
  | evaluate => exact called session.live session.cx .evaluate
  | stop => exact called session.live session.cx .stop
  | change edit => exact ⟨[], (List.append_nil _).symm⟩
  | tick delta =>
    refine dispatch_keeps (fun later => ∃ more, later.cx.shown id = session.cx.shown id ++ more)
      ?_ _ _ ⟨[], (List.append_nil _).symm⟩
    rintro due later ⟨more, shown⟩
    unfold wake
    split
    · obtain ⟨rest, told⟩ := called later.live later.cx (.resume due)
      exact ⟨more ++ rest, told.trans (by rw [shown, List.append_assoc])⟩
    · exact ⟨more, shown⟩

theorem run_shown (commands : List (Command H)) : (session.run commands).cx.shown id =
    session.cx.shown id ++ (session.tellings id commands).flatten := by
  induction commands generalizing session with
  | nil => exact (List.append_nil _).symm
  | cons command rest ih =>
    obtain ⟨more, shown⟩ : ∃ more,
        (session.perform command).cx.shown id = session.cx.shown id ++ more :=
      perform_shown id command
    have told : session.tells id command = more := by rw [tells, shown, List.drop_left]
    rw [tellings, List.flatten_cons, told, ← List.append_assoc, ← shown]
    exact ih

end Telling

theorem Reckoned.shares (reckoned : session.Reckoned) : session.Shares [] := by
  obtain ⟨_, lost, accounted, _⟩ := reckoned
  exact ⟨[], lost, by rwa [List.append_nil]⟩

def Falls (id : Nat) (held : Option Nat) (session : Session H tree) : Command H → Bool → Prop
  | .tick delta, true => ∃ task, held = some task ∧ ⟨id, task⟩ ∈ (session.advance delta).1
  | .tick delta, false => ∀ wake ∈ (session.advance delta).1, held ≠ some wake.task
  | _, due => due = false

section Places

variable {rhythm : Rhythm σ} {ids : List Nat}
  {stands : Live H node → Context H → Option σ → Prop} {before : Option σ} {held : Option Nat}
  {due : Bool}

def Placed (stands : Live H node → Context H → Option σ → Prop) (held : Option Nat)
    (place : Option σ) (session : Session H tree) : Prop :=
  session.Tracks node.id (Rhythm.Of node fun live cx => live.task? = held ∧ stands live cx place)

theorem Placed.part (placed : session.Placed stands held before) : ∃ live : Live H node,
    ⟨node, live⟩ ∈ session.live.parts ∧ live.task? = held ∧ stands live session.cx before := by
  obtain ⟨part, only, live, rfl, holds, kept⟩ := placed
  exact ⟨live, List.mem_of_mem_filter (only ▸ List.mem_singleton_self _), holds, kept⟩

def InCall (rhythm : Rhythm σ) (stands : Live H node → Context H → Option σ → Prop)
    (start : Agenda) (past : Report) (before : Option σ) (held : Option Nat) (due : Bool)
    (session : Session H tree) : Prop :=
  session.Tracks node.id (Rhythm.Of node (rhythm.Calls stands start past before held due))

theorem Placed.begins (placed : session.Placed stands held before) :
    session.InCall rhythm stands session.cx.agenda (session.cx.shown node.id) before held
      false := by
  obtain ⟨part, only, live, rfl, holds, kept⟩ := placed
  exact ⟨_, only, live, rfl, .refl _, [], before, (List.append_nil _).symm, .rests, kept,
    .inl ⟨rfl, rfl, holds⟩⟩

theorem InCall.ends {start : Agenda} {past : Report}
    (inside : session.InCall rhythm stands start past before held due) :
    session.cx.agenda.now = start.now ∧ ∃ told task after,
      session.cx.shown node.id = past ++ told ∧ rhythm.Turns start.now before due told after ∧
        session.Placed stands task after := by
  obtain ⟨part, only, live, same, grows, told, after, shown, turns, kept, _⟩ := inside
  exact ⟨grows.now, told, live.task?, after, shown, turns, part, only, live, same, rfl, kept⟩

section Performing

variable (rules : rhythm.Rules ids stands) (own : node.id ∈ ids) (numbered : tree.Numbered)
  (clear : tree.Clears node.id ids) (reckoned : session.Reckoned)
  (placed : session.Placed stands held before)

include rules

theorem Placed.advance (placed : session.Placed stands held before) (delta : Nat) :
    (session.advance delta).2.Placed stands held before := by
  obtain ⟨part, only, live, same, holds, kept⟩ := placed
  exact ⟨part, only, live, same, holds, rules.advance delta kept⟩

include own numbered clear reckoned placed

theorem tick_inCall {delta : Nat} (falls : session.Falls node.id held (.tick delta) due) :
    (session.tick delta).1.InCall rhythm stands (session.advance delta).2.cx.agenda
      (session.cx.shown node.id) before held due := by
  have begun : (session.advance delta).2.InCall rhythm stands _ _ before held false :=
    (placed.advance rules delta).begins
  have shares := reckoned.shares
  have old : ∀ wake ∈ (session.advance delta).1,
      wake.task < (session.advance delta).2.cx.agenda.nextId := due_old shares delta
  cases due with
  | false =>
    exact dispatch_tracks numbered clear (Rhythm.calls_follows rules own)
      (fun wake member => Rhythm.calls_misses rules (old wake member) (falls wake member)) begun
  | true =>
    obtain ⟨task, rfl, member⟩ := falls
    -- the wakes before and behind its own are for other tasks
    obtain ⟨front, back, batch, early, late⟩ := due_split shares delta member
    rw [batch] at old
    obtain ⟨oldFront, oldRest⟩ := List.forall_mem_append.mp old
    obtain ⟨oldOwn, oldBack⟩ := List.forall_mem_cons.mp oldRest
    have apart {wake : Wake} (other : wake.task ≠ task) : some task ≠ some wake.task :=
      fun same => other (Option.some.inj same).symm
    cases before with
    | none =>
      obtain ⟨live, _, holds, kept⟩ := placed.part
      exact nomatch holds.symm.trans (rules.rests kept).1
    | some place =>
      rw [tick, batch]
      exact dispatch_tracks_of_mem numbered clear (Rhythm.calls_follows rules own)
        (Rhythm.calls_follows rules own)
        (fun wake there => Rhythm.calls_misses rules (oldFront wake there) (apart (early wake there)))
        (Rhythm.calls_beats rules oldOwn)
        (fun wake there => Rhythm.calls_misses rules (oldBack wake there) (apart (late wake there)))
        begun

theorem perform_inCall {command : Command H} (falls : session.Falls node.id held command due) :
    ∃ start : Agenda, start.now = session.cx.agenda.now + command.lapse ∧
      (session.perform command).InCall rhythm stands start (session.cx.shown node.id) before held
        due := by
  have follows := @Rhythm.calls_follows H σ rhythm node ids stands rules session.cx.agenda
    (session.cx.shown node.id) before held false own
  cases command with
  | tick delta => exact ⟨_, rfl, tick_inCall rules own numbered clear reckoned placed falls⟩
  | evaluate =>
    obtain rfl : due = false := falls
    exact ⟨_, rfl, evaluate_tracks clear follows placed.begins⟩
  | stop =>
    obtain rfl : due = false := falls
    exact ⟨_, rfl, stop_tracks clear follows placed.begins⟩
  | change edit =>
    obtain rfl : due = false := falls
    exact ⟨_, rfl, Tracked.quiet follows placed.begins rfl (.refl _)⟩

theorem perform_placed {command : Command H} (falls : session.Falls node.id held command due) :
    let performed := session.perform command
    performed.cx.agenda.now = session.cx.agenda.now + command.lapse ∧
      ∃ task after, performed.Placed stands task after ∧
        rhythm.Turns performed.cx.agenda.now before due (session.tells node.id command) after := by
  intro performed
  obtain ⟨start, lapse, inside⟩ := perform_inCall rules own numbered clear reckoned placed falls
  obtain ⟨now, told, task, after, shown, turns, kept⟩ := inside.ends
  refine ⟨now.trans lapse, task, after, kept, ?_⟩
  rw [tells, shown, List.drop_left, now]
  exact turns

end Performing

theorem start_placed (distinct : (tree.labels.map Label.id).Nodup) (member : node ∈ tree.nodes)
    {scene : Scene H.Target} {sampler : H.Sampler}
    (born : stands (Live.initial node) (start tree scene sampler).cx none) :
    (start tree scene sampler).Placed stands (Live.initial node).task? none := by
  have named : node.id ∈ tree.labels.map Label.id := by
    rw [← nodes_ids]
    exact List.mem_map_of_mem member
  refine tracks_of_forall distinct named ?_
  rintro ⟨other, live⟩ there own
  have never : live = Live.initial other := initial_parts tree _ there
  have same : other = node := by
    rw [← nodes_ids] at distinct
    refine List.inj_on_of_nodup_map distinct ?_ member own
    rw [← parts_trees (Live.initial tree)]
    exact List.mem_map_of_mem there
  subst same never
  exact ⟨_, rfl, rfl, born⟩

section Running

variable (rules : rhythm.Rules ids stands) (own : node.id ∈ ids) (numbered : tree.Numbered)
  (clear : tree.Clears node.id ids)
  (falls : ∀ {session : Session H tree} {held : Option Nat} {place : Option σ},
    session.Reckoned → session.Placed stands held place →
      ∀ command, ∃ due, session.Falls node.id held command due)

include rules own numbered clear falls

theorem run_keeps_placed (commands : List (Command H)) (reckoned : session.Reckoned)
    (placed : ∃ held place, session.Placed stands held place) :
    ∃ held place, (session.run commands).Placed stands held place := by
  induction commands generalizing session with
  | nil => exact placed
  | cons command rest ih =>
    obtain ⟨held, place, placed⟩ := placed
    obtain ⟨due, falls⟩ := falls reckoned placed command
    obtain ⟨_, task, after, kept, _⟩ :=
      perform_placed rules own numbered clear reckoned placed falls
    exact ih (run_reckoned numbered [command] reckoned) ⟨task, after, kept⟩

/-- After a call in which a node told last that it runs, it stands where it begins, unless it had a
beat in which it tells this. -/
theorem run_opens (member : node ∈ tree.nodes) {scene : Scene H.Target} {sampler : H.Sampler}
    (born : stands (Live.initial node) (start tree scene sampler).cx none)
    (before : List (Command H)) (opening : Command H) {early : Report} :
    let found := (start tree scene sampler).run before
    let opened := found.perform opening
    found.tells node.id opening = early ++ [.running] →
      early.getLast? ≠ some .running ∧ opened.Reckoned ∧
        ∃ task place, opened.Placed stands task (some place) ∧
          (place = rhythm.first opened.cx.agenda.now ∨
            rhythm.loud = true ∧ ∃ last, place = rhythm.next opened.cx.agenda.now last) := by
  intro found opened opens
  have fresh : (start tree scene sampler).Reckoned := start_reckoned scene sampler
  have reckoned : found.Reckoned := run_reckoned numbered before fresh
  obtain ⟨held, place, placed⟩ := run_keeps_placed rules own numbered clear falls before fresh
    ⟨_, _, start_placed numbered.distinct member born⟩
  obtain ⟨due, falls⟩ := falls reckoned placed opening
  obtain ⟨_, task, after, kept, turns⟩ :=
    perform_placed rules own numbered clear reckoned placed falls
  rw [opens] at turns
  obtain ⟨stands, apart⟩ := turns.of_running
  refine ⟨apart, run_reckoned numbered [opening] reckoned, ?_⟩
  rcases stands with rfl | ⟨_, loud, last, rfl⟩
  · exact ⟨task, _, kept, .inl rfl⟩
  · exact ⟨task, _, kept, .inr ⟨loud, last, rfl⟩⟩

end Running

end Places

end Session

end ReactiveTree
