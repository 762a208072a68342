import ReactiveTree.Proofs.Footprint
import ReactiveTree.Proofs.Run

/-!
What no step of a node changes. A fact about contexts that is kept by every single step, be it an
announcement, a request to the agenda, a sample or a call of a unit, is kept by whatever a tree is
called for: the call is run beside itself, with a bridge that asks for the fact.
-/

namespace ReactiveTree

variable {H : Host}

/-- No step ends what holds of the context. -/
structure Context.Steady (keeps : Context H → Prop) : Prop where
  announce : ∀ {cx}, keeps cx → ∀ label kind status, keeps (cx.announce label kind status)
  everyTick : ∀ {cx}, keeps cx → ∀ label, keeps (cx.everyTick label).2
  after : ∀ {cx}, keeps cx → ∀ label delay, keeps (cx.after label delay).2
  cancel : ∀ {cx}, keeps cx → ∀ task, keeps (cx.cancel task)
  draw : ∀ {cx}, keeps cx → keeps cx.draw.2
  poll : ∀ {cx}, keeps cx → ∀ label unit, keeps (cx.poll label unit).cx
  act : ∀ {cx}, keeps cx → ∀ label phase unit, keeps (cx.act label phase unit).cx

variable {keeps : Context H → Prop}

def Bridge.steady (keeps : Context H → Prop) : Bridge H H where
  named _ := True
  contexts cx cx' := cx' = cx ∧ keeps cx
  gates := Eq
  conditions := Eq
  actions := Eq
  faces := Eq

theorem steady_sound (steady : Context.Steady keeps) : (Bridge.steady keeps).Sound where
  running := by rintro _ _ rfl; rfl
  waiting := by rintro _ _ rfl; rfl
  idle := rfl
  active := rfl
  announce := by
    rintro label cx _ _ ⟨rfl, kept⟩ kind status
    exact ⟨rfl, steady.announce kept label kind status⟩
  everyTick := by
    rintro label cx _ _ ⟨rfl, kept⟩
    exact ⟨rfl, rfl, steady.everyTick kept label⟩
  after := by
    rintro label cx _ _ ⟨rfl, kept⟩ delay
    exact ⟨rfl, rfl, steady.after kept label delay⟩
  cancel := by
    rintro cx _ ⟨rfl, kept⟩ task
    exact ⟨rfl, steady.cancel kept task⟩
  draw := by
    rintro cx _ ⟨rfl, kept⟩
    exact ⟨rfl, rfl, steady.draw kept⟩
  poll := by
    rintro label unit _ cx _ _ rfl ⟨rfl, kept⟩
    exact ⟨rfl, rfl, rfl, steady.poll kept label unit⟩
  ask := by
    rintro label unit _ cx _ _ rfl ⟨rfl, kept⟩
    have polled := steady.poll (steady.announce kept label .conditionNode .running) label unit
    refine ⟨rfl, rfl, rfl, rfl, ?_⟩
    unfold runCondition
    dsimp only
    split
    · exact steady.announce polled label _ _
    · exact steady.announce polled label _ _
  step := by
    rintro label phase status _ unit _ cx _ _ _ rfl rfl ⟨rfl, kept⟩ task
    have called := steady.act kept label phase unit
    refine ⟨rfl, rfl, rfl, ⟨rfl, ?_⟩, rfl⟩
    unfold stepAction
    dsimp only
    split
    · exact called
    · exact steady.announce (steady.cancel called task) label _ _
    · exact steady.announce (steady.cancel called task) label _ _
  halt := by
    rintro label unit _ cx _ _ rfl ⟨rfl, kept⟩
    exact ⟨rfl, rfl, steady.act kept label .stop unit⟩

/-- Whatever a tree is called for, the fact holds afterwards. -/
theorem visit_keeps (steady : Context.Steady keeps) {tree : Tree H} (live : Live H tree)
    {cx : Context H} (kept : keeps cx) (summons : Summons) : keeps (live.visit cx summons).cx := by
  have reflects : (Bridge.steady keeps).Reflects :=
    ⟨fun _ => rfl, fun _ => rfl, fun _ => rfl, fun _ => rfl⟩
  have alike := matches_self reflects live fun _ _ => trivial
  exact (visit_matches (steady_sound steady) alike ⟨rfl, kept⟩ summons).cx.2

namespace Session

variable {tree : Tree H} {session : Session H tree}

theorem evaluate_keeps (steady : Context.Steady keeps) (kept : keeps session.cx) :
    keeps session.evaluate.1.cx :=
  visit_keeps steady session.live kept .evaluate

theorem stop_keeps_cx (steady : Context.Steady keeps) (kept : keeps session.cx) :
    keeps session.stop.cx :=
  visit_keeps steady session.live kept .stop

theorem wake_keeps (steady : Context.Steady keeps) (due : Wake) (kept : keeps session.cx) :
    keeps (session.wake due).1.cx := by
  unfold wake
  split
  · exact visit_keeps steady session.live kept (.resume due)
  · exact kept

/-- A tick moves the clock first, and what falls due is delivered after that. -/
theorem tick_keeps (steady : Context.Steady keeps) {delta : Nat}
    (kept : keeps (session.advance delta).2.cx) : keeps (session.tick delta).1.cx :=
  dispatch_keeps (fun session => keeps session.cx)
    (fun due _ kept => wake_keeps steady due kept) _ _ kept

end Session

/-! Facts about the agenda -/

theorem steady_now (time : Nat) : Context.Steady fun cx : Context H => cx.agenda.now = time where
  announce kept _ _ _ := kept
  everyTick kept _ := kept
  after kept _ _ := kept
  cancel kept task := by cases task <;> exact kept
  draw kept := kept
  poll kept _ _ := kept
  act kept _ _ _ := kept

theorem steady_overrun : Context.Steady fun cx : Context H => cx.agenda.overrun = true where
  announce kept _ _ _ := kept
  everyTick kept _ := kept
  after kept _ _ := Bool.or_eq_true_iff.mpr (.inl kept)
  cancel kept task := by cases task <;> exact kept
  draw kept := kept
  poll kept _ _ := kept
  act kept _ _ _ := kept

end ReactiveTree
