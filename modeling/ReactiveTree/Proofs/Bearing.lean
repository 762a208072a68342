import ReactiveTree.Proofs.Frames
import ReactiveTree.Proofs.Wrapping

/-!
The heading of a pawn. Rotations by finite numbers of degrees keep it between zero and a full turn,
and it is the full turn itself after a rotation that ends below a whole number of turns by no more
than half of the last place there. Whatever a tree of the standard units does with a pawn, its
heading is in the turn or, after a rotation by a number that is not finite, not a number.
-/

namespace ReactiveTree

namespace Single

open Rounding

variable {x y : Single}

/-- Between zero and a full turn, both included. -/
def InTurn (x : Single) : Prop :=
  Single.atMost 0 x ∧ x.atMost 360

/-- The number of degrees is below a whole number of turns, by no more than `2 ^ -16`. -/
def JustShort (x : Single) : Prop :=
  (x.remainder 360).less 0 ∧ Single.atMost (-(1 / 65536)) (x.remainder 360)

instance (x : Single) : Decidable (InTurn x) :=
  inferInstanceAs (Decidable (_ ∧ _))

instance (x : Single) : Decidable (JustShort x) :=
  inferInstanceAs (Decidable (_ ∧ _))

def turnUnits : Nat := 360 * 2 ^ 149

theorem measures_turn : Measures 360 turnUnits := ⟨by decide +kernel, by decide +kernel⟩

theorem turnUnits_pos : 0 < turnUnits := by decide

theorem inTurn_iff : InTurn x ↔ ∃ units ≤ turnUnits, Measures x units := by
  constructor
  · rintro ⟨least, most⟩
    have finite : x.isFinite := by
      rw [atMost, compareBy, measures_zero.2] at least
      rw [atMost, compareBy, measures_turn.2] at most
      cases x with
      | notANumber => exact absurd least Bool.false_ne_true
      | infinite negative => cases negative <;> revert least most <;> decide
      | finite => rfl
    obtain ⟨units, measures⟩ := exists_measures finite (not_less_zero least)
    exact ⟨units, (measures.atMost_iff measures_turn).mp most, measures⟩
  · rintro ⟨units, most, measures⟩
    exact ⟨(measures_zero.atMost_iff measures).mpr (Nat.zero_le _),
      (measures.atMost_iff measures_turn).mpr most⟩

theorem inTurn_wrap (finite : x.isFinite) : InTurn (x.wrap 360) :=
  inTurn_iff.mpr (exists_measures_wrap measures_turn turnUnits_pos finite)

theorem isFinite_turn_add (inTurn : InTurn x) (finite : y.isFinite) : (x + y).isFinite := by
  obtain ⟨units, most, measures⟩ := inTurn_iff.mp inTurn
  exact isFinite_add measures (Nat.lt_of_le_of_lt most (by decide)) finite

theorem justShort_iff {negative : Bool} {rest : Nat} {representable : Representable rest}
    (exact : x.remainder 360 = .finite negative rest representable) :
    JustShort x ↔ (negative = true ∧ 0 < rest) ∧ 2 * rest ≤ 2 ^ 134 := by
  have least : (-(1 / 65536) : Single).place? = some (-((2 ^ 133 : Nat) : Int)) := by decide +kernel
  rw [JustShort, exact, less_zero_iff, atMost, compareBy, least]
  refine and_congr_right fun below => ?_
  obtain ⟨rfl, _⟩ := below
  simp only [place?, signed, if_true, decide_eq_true_eq]
  rw [neg_le_neg_iff, Nat.cast_le]
  omega

/-- A turn is complete only after a number of degrees that is just short of it. -/
theorem wrap_less_turn_iff (finite : x.isFinite) : (x.wrap 360).less 360 ↔ ¬ JustShort x := by
  obtain ⟨negative, rest, _, exact, part, wrapped⟩ :=
    measures_wrap measures_turn turnUnits_pos finite
  rw [wrapped.less_iff measures_turn, justShort_iff exact]
  split
  · rename_i below
    have turn : turnUnits = (11796479 + 1) * 2 ^ 134 := by decide
    have reached : significant 24 (turnUnits - rest) 1 = turnUnits ↔ 2 * rest ≤ 2 ^ 134 := by
      rw [turn]
      exact significant_sub_eq_iff (by decide) (by decide) (by decide) (by decide) below.2
    have most : significant 24 (turnUnits - rest) 1 ≤ turnUnits :=
      significant_le measures_turn.representable.2 (by omega) Nat.one_pos
    rw [and_iff_right below, ← reached]
    omega
  · rename_i above
    exact iff_of_true part fun short => above short.1

theorem wrap_of_not_finite (lost : x.isFinite = false) (turn : Single) :
    x.wrap turn = .notANumber := by
  have rest : x.remainder turn = .notANumber := by
    cases x with
    | finite => exact absurd lost.symm Bool.false_ne_true
    | notANumber | infinite => cases turn <;> rfl
  rw [wrap, rest]
  rfl

end Single

namespace Call

variable {Unit Target α β : Type} {kind : ValueKind}

theorem run_bind (call : Call Unit Target α) (next : α → Call Unit Target β)
    (state : Unit × Scene Target) :
    (call >>= next).run state =
      (call.run state).1.elim (none, (call.run state).2) fun content =>
        (next content).run (call.run state).2 := by
  rw [OptionT.run_bind]
  change ((call.run state).1.elim (pure none : StateM _ _) (fun content => (next content).run)
    (call.run state).2) = _
  cases (call.run state).1 <;> rfl

theorem run_read (input : Input kind) (state : Unit × Scene Target) :
    (read input : Call Unit Target _).run state =
      ((input.read state.2.blackboard).toOption, state) := by
  have seen : (scene : Call Unit Target _).run state = (some state.2, state) := rfl
  rw [read, run_bind, seen]
  dsimp only [Option.elim]
  cases input.read state.2.blackboard <;> rfl

theorem run_read_bind (input : Input kind) (next : kind.Carrier → Call Unit Target α)
    (state : Unit × Scene Target) :
    (read input >>= next).run state = (input.read state.2.blackboard).toOption.elim
      (none, state) fun content => (next content).run state := by
  rw [run_bind, run_read]

end Call

namespace Pawn

open Single

/-- What is done to a pawn. An update is one of a turning action, whatever time has passed in it and
whatever the variables hold; together with the begin of a frame it is a frame of that action. -/
inductive Maneuver where
  | rotate (degrees : Single)
  | translate (offset : Vector3)
  | beginFrame (delta : Nat)
  | update (rate time : Input .float) (elapsed : Single) (blackboard : Blackboard)

def perform (pawn : Pawn) : Maneuver → Pawn
  | .rotate degrees => pawn.rotate degrees
  | .translate offset => pawn.translate offset
  | .beginFrame delta => pawn.beginFrame delta
  | .update rate time elapsed blackboard =>
    (standard.act .update (.turn rate time elapsed) ⟨pawn, blackboard⟩).scene.target

/-- How far the pawn is rotated. An action whose time is up or whose inputs are missing does not
rotate it. -/
def degrees? (pawn : Pawn) : Maneuver → Option Single
  | .rotate degrees => some degrees
  | .translate _ | .beginFrame _ => none
  | .update rate time elapsed blackboard => do
    let limit : Single ← (time.read blackboard).toOption
    if limit.atMost elapsed then none
    else
      let degrees : Single ← (rate.read blackboard).toOption
      some (degrees * pawn.deltaSeconds)

def course : List Maneuver → Pawn → List (Pawn × Maneuver)
  | [], _ => []
  | maneuver :: rest, pawn => (pawn, maneuver) :: course rest (pawn.perform maneuver)

theorem perform_heading (pawn : Pawn) (maneuver : Maneuver) :
    (pawn.perform maneuver).heading = ((pawn.degrees? maneuver).elim pawn.heading
      fun degrees => (pawn.heading + degrees).wrap 360) := by
  cases maneuver with
  | rotate | translate | beginFrame => rfl
  | update rate time elapsed blackboard =>
    change ((Action.turn rate time elapsed).update.run
      (Action.turn rate time elapsed, ⟨pawn, blackboard⟩)).2.2.target.heading = _
    unfold Action.update degrees?
    dsimp only
    rw [Call.run_read_bind]
    dsimp only
    cases (time.read blackboard).toOption with
    | none => rfl
    | some limit =>
      dsimp only [Option.elim, Option.bind_eq_bind, Option.bind_some]
      split
      · rfl
      · rw [Call.run_read_bind]
        cases (rate.read blackboard).toOption <;> rfl

section Course

variable {pawn : Pawn} {maneuver : Maneuver} {maneuvers : List Maneuver}

theorem inTurn_perform (inTurn : InTurn pawn.heading)
    (finite : ∀ degrees ∈ pawn.degrees? maneuver, degrees.isFinite) :
    InTurn (pawn.perform maneuver).heading := by
  rw [perform_heading]
  cases turned : pawn.degrees? maneuver with
  | none => exact inTurn
  | some degrees => exact inTurn_wrap (isFinite_turn_add inTurn (finite degrees turned))

theorem perform_less_turn_iff (inTurn : InTurn pawn.heading) {degrees : Single}
    (turned : degrees ∈ pawn.degrees? maneuver) (finite : degrees.isFinite) :
    (pawn.perform maneuver).heading.less 360 ↔ ¬ JustShort (pawn.heading + degrees) := by
  rw [perform_heading, Option.mem_def.mp turned]
  exact wrap_less_turn_iff (isFinite_turn_add inTurn finite)

theorem course_inTurn (starts : InTurn pawn.heading)
    (finite : ∀ step ∈ course maneuvers pawn, ∀ degrees ∈ step.1.degrees? step.2,
      degrees.isFinite) :
    ∀ step ∈ course maneuvers pawn, InTurn step.1.heading := by
  induction maneuvers generalizing pawn with
  | nil => simp [course]
  | cons maneuver rest ih =>
    rw [course, List.forall_mem_cons] at finite ⊢
    exact ⟨starts, ih (inTurn_perform starts finite.1) finite.2⟩

end Course

/-! ### Agents -/

/-- The heading is in the turn, or it was lost. -/
def Headed (pawn : Pawn) : Prop :=
  pawn.heading = .notANumber ∨ InTurn pawn.heading

theorem headed_rotate (pawn : Pawn) (degrees : Single) : Headed (pawn.rotate degrees) := by
  by_cases finite : (pawn.heading + degrees).isFinite
  · exact .inr (inTurn_wrap finite)
  · exact .inl (wrap_of_not_finite (Bool.eq_false_of_not_eq_true finite) 360)

theorem outlasts_headed : Outlasts Headed where
  translate _ _ headed := headed
  rotate pawn degrees _ := headed_rotate pawn degrees
  draw _ _ headed := headed

end Pawn

theorem Agent.run_keeps {units : Pawn.Units} {tree : Tree units.host} {holds : Pawn → Prop}
    (kept : units.Keep holds) (begins : ∀ pawn delta, holds pawn → holds (pawn.beginFrame delta))
    (commands : List AgentCommand) {agent : Agent tree} (starts : holds agent.pawn) :
    holds (agent.run commands).1.pawn := by
  have steady := steady_pawn kept
  induction commands generalizing agent with
  | nil => exact starts
  | cons command rest ih =>
    refine ih ?_
    cases command with
    | start => exact agent.start_keeps steady starts
    | frame delta => exact agent.frame_keeps steady (begins _ delta starts)
    | write => exact starts
    | shutdown => exact agent.shutdown_keeps steady starts

open Pawn Single

/-- After every step the heading is in the turn. It is below the full turn unless the rotation ended
just short of it, and nothing but a rotation changes it. The standard units keep it in the turn as
long as it is a number, whatever tree they stand in. -/
theorem heading_stays_in_turn {pawn : Pawn} (starts : InTurn pawn.heading) :
    (∀ maneuvers : List Maneuver,
      (∀ step ∈ course maneuvers pawn, ∀ degrees ∈ step.1.degrees? step.2, degrees.isFinite) →
      ∀ step ∈ course maneuvers pawn,
        InTurn (step.1.perform step.2).heading ∧
        (step.1.degrees? step.2 = none → (step.1.perform step.2).heading = step.1.heading) ∧
        ∀ degrees ∈ step.1.degrees? step.2,
          ((step.1.perform step.2).heading.less 360 ↔ ¬ JustShort (step.1.heading + degrees))) ∧
    ∀ (tree : Tree Pawn.host) (blackboard : Blackboard) (sampler : Sampler)
      (commands : List AgentCommand),
      let driven := ((Agent.new tree pawn blackboard sampler).run commands).1.pawn
      driven.heading = .notANumber ∨ InTurn driven.heading := by
  constructor
  · intro maneuvers finite step done
    have inTurn := course_inTurn starts finite step done
    refine ⟨inTurn_perform inTurn (finite step done), ?_, ?_⟩
    · intro unturned
      rw [perform_heading, unturned]
      rfl
    · intro degrees turned
      exact perform_less_turn_iff inTurn turned (finite step done degrees turned)
  · intro tree blackboard sampler commands
    exact Agent.run_keeps (standard_keep outlasts_headed) (fun _ _ headed => headed) commands
      (.inr starts)

section Slalom

def Pawn.slalom : List Maneuver :=
  [.rotate 350, .beginFrame 500000000, .update (.constant 90) (.constant (1 / 2)) 0 {},
    .translate ⟨1, 0, 0⟩, .rotate (-1000), .update (.constant 90) (.constant (1 / 2)) (1 / 2) {}]

theorem slalom_stays_in_turn :
    InTurn (seeded "pawn" 1).heading ∧
      (∀ step ∈ course slalom (seeded "pawn" 1), ∀ degrees ∈ step.1.degrees? step.2,
        degrees.isFinite) ∧
      ∀ step ∈ course slalom (seeded "pawn" 1), InTurn (step.1.perform step.2).heading := by
  have starts : InTurn (seeded "pawn" 1).heading := by decide +kernel
  have finite : ∀ step ∈ course slalom (seeded "pawn" 1), ∀ degrees ∈ step.1.degrees? step.2,
      degrees.isFinite := by decide +kernel
  obtain ⟨stays, _⟩ := heading_stays_in_turn starts
  exact ⟨starts, finite, fun step done => (stays slalom finite step done).1⟩

/-- A rotation back by a hair from zero, by hand and by an action, ends at the full turn. -/
theorem hair_completes_turn :
    ((seeded "pawn" 1).rotate (-(1 / 65536))).heading = 360 ∧
      let creep : List Maneuver :=
        [.beginFrame 100000000, .update (.constant (-(1 / 8192))) (.constant 1) 0 {}]
      (∀ step ∈ course creep (seeded "pawn" 1), ∀ degrees ∈ step.1.degrees? step.2,
        degrees.isFinite) ∧
      ∃ step ∈ course creep (seeded "pawn" 1), ¬ (step.1.perform step.2).heading.less 360 := by
  decide +kernel

end Slalom

end ReactiveTree
