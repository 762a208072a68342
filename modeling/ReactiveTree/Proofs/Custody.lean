import ReactiveTree.Pawn.Units
import ReactiveTree.Proofs.Steadiness

/-!
What units keep of a pawn. A call is made of a few requests, so a fact that none of them ends is
kept by the call. The standard units move, turn and draw for a pawn and do nothing else to it.
-/

namespace ReactiveTree

section Calls

variable {Unit Target α β : Type} {holds : Target → Prop}

/-- What holds of the target before the call holds of it afterwards. -/
def Call.Keeps (holds : Target → Prop) (call : Call Unit Target α) : Prop :=
  ∀ state, holds state.2.target → holds (call.run state).2.2.target

namespace Call.Keeps

theorem pure (result : α) : Keeps holds (Pure.pure result : Call Unit Target α) :=
  fun _ kept => kept

theorem fault : Keeps holds (Call.fault : Call Unit Target α) := fun _ kept => kept

theorem become (unit : Unit) : Keeps holds (Call.become unit : Call Unit Target PUnit) :=
  fun _ kept => kept

theorem setBlackboard (board : Blackboard) :
    Keeps holds (Call.setBlackboard board : Call Unit Target PUnit) :=
  fun _ kept => kept

theorem setTarget {target : Target} (kept : holds target) :
    Keeps holds (Call.setTarget target : Call Unit Target PUnit) :=
  fun _ _ => kept

theorem bind {call : Call Unit Target α} {next : α → Call Unit Target β}
    (first : Keeps holds call) (rest : ∀ result, Keeps holds (next result)) :
    Keeps holds (call >>= next) := by
  intro state before
  have kept := first state before
  rw [OptionT.run_bind]
  change holds ((call.run state).1.elim (Pure.pure none : StateM _ _)
    (fun result => (next result).run) (call.run state).2).2.2.target
  cases (call.run state).1 with
  | none => exact kept
  | some result => exact rest result _ kept

theorem scene : Keeps holds (Call.scene : Call Unit Target (Scene Target)) := fun _ kept => kept

theorem become_pure (unit : Unit) (result : α) :
    Keeps holds (Call.become unit >>= fun _ => Pure.pure result : Call Unit Target α) :=
  (become unit).bind fun _ => pure result

theorem target_bind {next : Target → Call Unit Target α}
    (rest : ∀ target, holds target → Keeps holds (next target)) :
    Keeps holds (Call.target >>= next) :=
  fun state kept => rest state.2.target kept state kept

theorem read {kind : ValueKind} (input : Input kind) :
    Keeps holds (Call.read input : Call Unit Target kind.Carrier) := by
  refine bind scene fun state => ?_
  split
  · exact pure _
  · exact fault

theorem write {kind : ValueKind} (output : Output kind) (content : kind.Carrier) :
    Keeps holds (Call.write output content : Call Unit Target PUnit) := by
  refine bind scene fun state => ?_
  split
  · exact setBlackboard _
  · exact fault

end Call.Keeps

end Calls

namespace Pawn

structure Units.Keep (units : Units) (holds : Pawn → Prop) : Prop where
  poll : ∀ unit scene, holds scene.target → holds (units.poll unit scene).scene.target
  act : ∀ phase unit scene, holds scene.target → holds (units.act phase unit scene).scene.target

/-- Moves, turns and draws do not end what holds of a pawn. -/
structure Outlasts (holds : Pawn → Prop) : Prop where
  translate : ∀ pawn offset, holds pawn → holds (pawn.translate offset)
  rotate : ∀ pawn degrees, holds pawn → holds (pawn.rotate degrees)
  draw : ∀ pawn stream, holds pawn → holds { pawn with stream }

section Standard

open Call

variable {holds : Pawn → Prop}

theorem Condition.keeps (unit : Condition) : Keeps holds unit.poll := by
  cases unit with
  | isSmaller a b => exact (Keeps.read a).bind fun a => (Keeps.read b).bind fun b => .pure _
  | isTrue flag => exact .read flag

variable (outlasts : Outlasts holds)
include outlasts

theorem Outlasts.random? {pawn after : Pawn} {low high value : Single}
    (drawn : pawn.random? low high = some (value, after)) (kept : holds pawn) : holds after := by
  obtain ⟨_, _, made⟩ := Option.map_eq_some_iff.mp drawn
  cases made
  exact outlasts.draw pawn _ kept

theorem Action.start_keeps (unit : Action) : Keeps holds unit.start := by
  cases unit with
  | waitSecond low high =>
    refine Keeps.bind (.read low) fun least => ?_
    refine Keeps.bind (.read high) fun bound => ?_
    refine Keeps.target_bind fun pawn kept => ?_
    split
    · rename_i wait after drawn
      refine Keeps.bind (.setTarget ?_) fun _ => ?_
      · exact outlasts.random? drawn kept
      · exact .become_pure _ _
    · exact .fault
  | storePosition => exact .pure _
  | _ => exact .become_pure _ _

theorem Action.update_keeps (unit : Action) : Keeps holds unit.update := by
  cases unit with
  | waitOneFrame => exact .become_pure _ _
  | waitSecond =>
    refine Keeps.target_bind fun pawn _ => ?_
    exact .become_pure _ _
  | move x y time elapsed =>
    refine Keeps.bind (.read time) fun limit => ?_
    split
    · exact .pure _
    · refine Keeps.bind (.read x) fun x => ?_
      refine Keeps.bind (.read y) fun y => ?_
      refine Keeps.target_bind fun pawn kept => ?_
      refine Keeps.bind (.setTarget ?_) fun _ => ?_
      · exact outlasts.translate pawn _ kept
      · exact .become_pure _ _
  | turn rate time elapsed =>
    refine Keeps.bind (.read time) fun limit => ?_
    split
    · exact .pure _
    · refine Keeps.bind (.read rate) fun degrees => ?_
      refine Keeps.target_bind fun pawn kept => ?_
      refine Keeps.bind (.setTarget ?_) fun _ => ?_
      · exact outlasts.rotate pawn _ kept
      · exact .become_pure _ _
  | storePosition position =>
    refine Keeps.target_bind fun pawn _ => ?_
    exact (Keeps.write position _).bind fun _ => .pure _

theorem standard_keep : standard.Keep holds where
  poll unit scene kept := unit.keeps (unit, scene) kept
  act phase unit scene kept := by
    cases phase with
    | start => exact unit.start_keeps outlasts (unit, scene) kept
    | update => exact unit.update_keeps outlasts (unit, scene) kept
    | stop => exact kept

end Standard

end Pawn

theorem steady_pawn {units : Pawn.Units} {holds : Pawn → Prop} (kept : units.Keep holds) :
    Context.Steady fun cx : Context units.host => holds cx.scene.target where
  announce holds _ _ _ := holds
  everyTick holds _ := holds
  after holds _ _ := holds
  cancel holds task := by cases task <;> exact holds
  draw holds := holds
  poll holds _ unit := kept.poll unit _ holds
  act holds _ phase unit := kept.act phase unit _ holds

end ReactiveTree
