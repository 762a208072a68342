import Mathlib.Algebra.Order.Field.Rat
import Mathlib.Data.Nat.Cast.Order.Field
import Mathlib.Tactic.FieldSimp
import Mathlib.Tactic.Linarith
import Mathlib.Tactic.NormNum
import Mathlib.Tactic.Positivity
import Mathlib.Tactic.Push
import Mathlib.Tactic.Ring
import ReactiveTree.Number.Double

/-!
How exact single-precision numbers are. A number that has the width already is kept by rounding, and
one that has not is moved by at most one part in `2 ^ width`, or by half a unit where the units end.
Rounding never passes a number that has the width.
-/

namespace ReactiveTree

namespace Rounding

variable {width num den units : Nat}

theorem nearest_mul (units : Nat) (positive : 0 < den) : nearest (units * den) den = units := by
  simp [nearest, Nat.mul_div_cancel units positive, positive]

theorem nearest_error (num : Nat) (positive : 0 < den) :
    |(nearest num den : ℚ) - num / den| ≤ 1 / 2 := by
  have whole : den * (num / den) + num % den = num := Nat.div_add_mod num den
  have apart : 2 * num ≤ 2 * (nearest num den * den) + den ∧
      2 * (nearest num den * den) ≤ 2 * num + den := by
    have less : num % den < den := Nat.mod_lt num positive
    have turned : den * (num / den) = num / den * den := Nat.mul_comm _ _
    have next : (num / den + 1) * den = num / den * den + den := Nat.succ_mul _ _
    simp only [nearest]
    split
    · omega
    · split
      · omega
      · -- a tie goes either way
        rcases Nat.mod_two_eq_zero_or_one (num / den) with even | odd
        · rw [even, Nat.add_zero]
          omega
        · rw [odd]
          omega
  have scale : (0 : ℚ) < den := by exact_mod_cast positive
  have above : (2 * num : ℚ) ≤ 2 * (nearest num den * den) + den := by exact_mod_cast apart.1
  have below : (2 * (nearest num den * den) : ℚ) ≤ 2 * num + den := by exact_mod_cast apart.2
  have moved : (nearest num den : ℚ) - num / den = (nearest num den * den - num) / den := by
    field_simp
  rw [moved, abs_le, le_div_iff₀ scale, div_le_iff₀ scale]
  constructor <;> linarith

theorem significant_of_fits (fits : Fits width units) (positive : 0 < den) :
    significant width (units * den) den = units := by
  obtain ⟨step, stepped, some⟩ : ∃ step, Nat.pow 2 (surplus width units) = step ∧ 0 < step :=
    ⟨_, rfl, Nat.two_pow_pos _⟩
  have whole : units / step * step = units :=
    Nat.div_mul_cancel (Nat.dvd_of_mod_eq_zero (stepped ▸ fits))
  have scaled : units * den = units / step * (den * step) := by
    rw [Nat.mul_comm den, ← Nat.mul_assoc, whole]
  unfold significant
  dsimp only
  rw [Nat.mul_div_cancel units positive, stepped, scaled, nearest_mul _ (Nat.mul_pos positive some),
    whole]

theorem filled_of_surplus {n : Nat} (wide : 0 < width) (long : 0 < surplus width n) :
    2 ^ width * 2 ^ surplus width n ≤ 2 * n := by
  have log : width + surplus width n = n.log2 + 1 := by
    unfold surplus at long ⊢
    omega
  have nonzero : n ≠ 0 := by
    rintro rfl
    have : Nat.log2 0 = 0 := by decide
    omega
  rw [← Nat.pow_add, log, Nat.pow_succ, Nat.mul_comm]
  exact Nat.mul_le_mul_left 2 (Nat.log2_self_le nonzero)

theorem lt_of_surplus (width n : Nat) : n < 2 ^ (width + surplus width n) := by
  have log : n.log2 + 1 ≤ width + surplus width n := by
    unfold surplus
    omega
  exact Nat.lt_of_lt_of_le (log2_lt_succ n) (Nat.pow_le_pow_right (by decide) log)

theorem significant_moved (width num : Nat) (positive : 0 < den) :
    |(significant width num den : ℚ) - num / den| ≤ 2 ^ surplus width (num / den) / 2 := by
  have scale : (0 : ℚ) < den := by exact_mod_cast positive
  have step : (0 : ℚ) < 2 ^ surplus width (num / den) := by positivity
  have moved := nearest_error num
    (Nat.mul_pos positive (Nat.two_pow_pos (surplus width (num / den))))
  unfold significant
  dsimp only
  push_cast [Nat.pow_eq] at moved ⊢
  have scaled : (nearest num (den * 2 ^ surplus width (num / den)) : ℚ) *
        2 ^ surplus width (num / den) - num / den =
      2 ^ surplus width (num / den) * (nearest num (den * 2 ^ surplus width (num / den)) -
        num / (den * 2 ^ surplus width (num / den))) := by
    field_simp
  rw [scaled, abs_mul, abs_of_pos step]
  nlinarith

theorem half_place_le (wide : 0 < width) (long : 0 < surplus width (num / den)) :
    (2 ^ surplus width (num / den) / 2 : ℚ) ≤ num / den / 2 ^ width := by
  have filled : (2 ^ width * 2 ^ surplus width (num / den) : ℚ) ≤ 2 * (num / den : Nat) := by
    exact_mod_cast filled_of_surplus wide long
  have floor : ((num / den : Nat) : ℚ) ≤ num / den := Nat.cast_div_le
  rw [le_div_iff₀ (by positivity)]
  linarith

/-- A quotient is moved by half a unit or by one part in `2 ^ width`. -/
theorem significant_error (wide : 0 < width) (num : Nat) (positive : 0 < den) :
    |(significant width num den : ℚ) - num / den| ≤ max (1 / 2) ((num : ℚ) / den / 2 ^ width) := by
  have moved := significant_moved width num positive
  rcases Nat.eq_zero_or_pos (surplus width (num / den)) with short | long
  · rw [short, pow_zero] at moved
    exact le_max_of_le_left moved
  · exact le_max_of_le_right (moved.trans (half_place_le wide long))

theorem significant_whole_error (wide : 0 < width) (num : Nat) :
    |(significant width num 1 : ℚ) - num| ≤ num / 2 ^ width := by
  have moved := significant_moved width num Nat.one_pos
  rcases Nat.eq_zero_or_pos (surplus width (num / 1)) with short | long
  · have fits : Fits width num := by
      rw [Nat.div_one] at short
      simp [Fits, short, Nat.mod_one]
    have kept := significant_of_fits fits Nat.one_pos
    rw [Nat.mul_one] at kept
    rw [kept, sub_self, abs_zero]
    positivity
  · have half := half_place_le wide long
    rw [Nat.cast_one, div_one] at moved half
    exact moved.trans half

theorem le_significant (wide : 0 < width) (fits : Fits width units) (below : units * den ≤ num)
    (positive : 0 < den) : units ≤ significant width num den := by
  have floor : units ≤ num / den := (Nat.le_div_iff_mul_le positive).mpr below
  have kept : num / den / 2 ^ surplus width (num / den) * 2 ^ surplus width (num / den) ≤
      significant width num den := by
    rw [Nat.div_div_eq_div_mul]
    exact Nat.mul_le_mul_right _ (le_nearest _ _)
  refine Nat.le_trans ?_ kept
  rcases Nat.lt_or_ge (surplus width units) (surplus width (num / den)) with shorter | same
  · -- the quotient fills more bits than the number has
    have filled := filled_of_surplus wide (Nat.zero_lt_of_lt shorter)
    have half : 2 ^ (width - 1) * 2 ^ surplus width (num / den) ≤ num / den := by
      have doubled : 2 ^ width = 2 * 2 ^ (width - 1) := by rw [← Nat.pow_succ']; congr 1; omega
      rw [doubled, Nat.mul_assoc] at filled
      omega
    calc units
      _ ≤ 2 ^ (width + surplus width units) := Nat.le_of_lt (lt_of_surplus width units)
      _ ≤ 2 ^ (width - 1) * 2 ^ surplus width (num / den) := by
        rw [← Nat.pow_add]
        exact Nat.pow_le_pow_right (by decide) (by omega)
      _ ≤ num / den / 2 ^ surplus width (num / den) * 2 ^ surplus width (num / den) :=
        Nat.mul_le_mul_right _ ((Nat.le_div_iff_mul_le (Nat.two_pow_pos _)).mpr half)
  · -- the bits that the quotient loses are zero in the smaller number
    have multiple : 2 ^ surplus width (num / den) ∣ units :=
      Nat.dvd_trans (Nat.pow_dvd_pow 2 same) (Nat.dvd_of_mod_eq_zero fits)
    obtain ⟨count, rfl⟩ := multiple
    rw [Nat.mul_comm] at floor ⊢
    exact Nat.mul_le_mul_right _ ((Nat.le_div_iff_mul_le (Nat.two_pow_pos _)).mpr floor)

end Rounding

namespace Single

open Rounding

def units : Single → Nat
  | .finite _ units _ => units
  | _ => 0

/-- The number is finite and not below zero; it is so many units. -/
def Measures (x : Single) (units : Nat) : Prop :=
  x.isFinite ∧ x.place? = some (units : Int)

theorem ofRatio_of_representable {units den : Nat} (representable : Representable units)
    (negative : Bool) (positive : 0 < den) :
    ofRatio negative (units * den) den = .finite negative units representable := by
  unfold ofRatio
  simp only [significant_of_fits representable.2 positive, representable.1, dif_pos]

theorem ofRatio_zero {den : Nat} (negative : Bool) (positive : 0 < den) :
    ofRatio negative 0 den = .finite negative 0 (by decide) := by
  have made := ofRatio_of_representable (by decide : Representable 0) negative positive
  rwa [Nat.zero_mul] at made

theorem measures_finite {negative : Bool} {units : Nat} {representable : Representable units}
    (placed : signed negative units = units) :
    Measures (.finite negative units representable) units :=
  ⟨rfl, congrArg some placed⟩

theorem sign_of_signed {negative : Bool} {units : Nat} (placed : signed negative units = units)
    (positive : 0 < units) : negative = false := by
  cases negative with
  | false => rfl
  | true =>
    simp only [signed, if_true] at placed
    omega

theorem signed_zero (negative : Bool) : signed negative 0 = (0 : Nat) := by
  cases negative <;> rfl

namespace Measures

variable {x y : Single} {units units' : Nat}

theorem eq_finite (measures : Measures x units) : ∃ negative representable,
    x = .finite negative units representable ∧ signed negative units = units := by
  obtain ⟨finite, placed⟩ := measures
  cases x with
  | notANumber | infinite negative => nomatch finite
  | finite negative count representable =>
    simp only [place?, Option.some.injEq] at placed
    obtain rfl : count = units := by
      unfold signed at placed
      split at placed <;> omega
    exact ⟨negative, representable, rfl, placed⟩

theorem representable (measures : Measures x units) : Representable units := by
  obtain ⟨_, representable, _⟩ := measures.eq_finite
  exact representable

theorem units_eq (measures : Measures x units) : x.units = units := by
  obtain ⟨_, _, rfl, _⟩ := measures.eq_finite
  rfl

theorem less_iff (left : Measures x units) (right : Measures y units') :
    x.less y ↔ units < units' := by
  simp [less, compareBy, left.2, right.2]

theorem atMost_iff (left : Measures x units) (right : Measures y units') :
    x.atMost y ↔ units ≤ units' := by
  simp [atMost, compareBy, left.2, right.2]

theorem same_iff (left : Measures x units) (right : Measures y units') :
    x.same y ↔ units = units' := by
  simp [same, compareBy, left.2, right.2]

theorem of_ratio {num den : Nat} (room : significant 24 num den < ceiling) :
    Measures (ofRatio false num den) (significant 24 num den) := by
  simp [Measures, ofRatio, room, isFinite, place?, signed]

theorem add (left : Measures x units) (right : Measures y units') :
    if significant 24 (units + units') 1 < ceiling then
      Measures (x + y) (significant 24 (units + units') 1)
    else x + y = .infinite false := by
  obtain ⟨negative, _, rfl, placed⟩ := left.eq_finite
  obtain ⟨negative', _, rfl, placed'⟩ := right.eq_finite
  change if _ then Measures (Single.add _ _) _ else Single.add _ _ = _
  simp only [Single.add, placed, placed']
  rcases Nat.eq_zero_or_pos (units + units') with none | some
  · obtain ⟨rfl, rfl⟩ := Nat.add_eq_zero_iff.mp none
    have kept : significant 24 0 1 = 0 := by decide
    have room : 0 < ceiling := by decide
    simp only [kept, room, if_true, Nat.cast_zero, add_zero, ofRatio_zero _ Nat.one_pos]
    exact measures_finite (signed_zero _)
  · have total : (units : Int) + units' ≠ 0 := by omega
    have sign : ¬ (units : Int) + units' < 0 := by omega
    have size : ((units : Int) + units').natAbs = units + units' := by omega
    simp only [total, sign, size, if_false, decide_false]
    split
    · rename_i room
      exact of_ratio room
    · rename_i full
      simp [ofRatio, full]

theorem div (left : Measures x units) (right : Measures y units') (positive : 0 < units') :
    if significant 24 (units * Nat.pow 2 149) units' < ceiling then
      Measures (x / y) (significant 24 (units * Nat.pow 2 149) units')
    else x / y = .infinite false := by
  obtain ⟨negative, _, rfl, placed⟩ := left.eq_finite
  obtain ⟨negative', _, rfl, placed'⟩ := right.eq_finite
  change if _ then Measures (Single.div _ _) _ else Single.div _ _ = _
  simp only [Single.div, Nat.ne_of_gt positive, if_false]
  rw [sign_of_signed placed' positive, Bool.xor_false]
  rcases Nat.eq_zero_or_pos units with rfl | some
  · have kept := significant_of_fits (by decide : Fits 24 0) positive
    have room : 0 < ceiling := by decide
    rw [Nat.zero_mul] at kept ⊢
    rw [kept, if_pos room, ofRatio_zero _ positive]
    exact measures_finite (signed_zero _)
  · rw [sign_of_signed placed some]
    split
    · rename_i room
      exact of_ratio room
    · rename_i full
      simp [ofRatio, full]

end Measures

theorem measures_zero : Measures 0 0 := ⟨by decide +kernel, by decide +kernel⟩

theorem measures_one : Measures 1 (2 ^ 149) := ⟨by decide +kernel, by decide +kernel⟩

theorem exists_measures {x : Single} (finite : x.isFinite) (positive : ¬ x.less 0) :
    ∃ units, Measures x units := by
  cases x with
  | notANumber | infinite negative => nomatch finite
  | finite negative units representable =>
    refine ⟨units, measures_finite ?_⟩
    cases negative with
    | false => rfl
    | true =>
      rw [less, compareBy, measures_zero.2] at positive
      simp only [place?, signed, if_true, Nat.cast_zero, decide_eq_true_eq] at positive ⊢
      omega

theorem units_pos {x : Single} {units : Nat} (measures : Measures x units)
    (positive : x.atMost 0 = false) :
    0 < units := by
  have above := (measures.atMost_iff measures_zero).not.mp (by simp [positive])
  omega

theorem less_of_place? {x y y' : Single} (same : y.place? = y'.place?) : x.less y = x.less y' := by
  unfold less compareBy
  rw [same]

theorem not_less_zero {x : Single} (positive : Single.atMost 0 x) : ¬ x.less 0 := by
  unfold less atMost compareBy at *
  rw [measures_zero.2] at *
  cases placed : x.place? with
  | none => simp
  | some place =>
    rw [placed] at positive
    simpa using positive

def IsAmount (x : Single) : Prop :=
  x = .infinite false ∨ ∃ units, Measures x units

namespace IsAmount

variable {x y : Single}

theorem add (left : IsAmount x) (right : IsAmount y) : IsAmount (x + y) := by
  rcases left with rfl | ⟨units, left⟩
  · rcases right with rfl | ⟨units', right⟩
    · exact .inl rfl
    · obtain ⟨_, _, rfl, _⟩ := right.eq_finite
      exact .inl rfl
  · rcases right with rfl | ⟨units', right⟩
    · obtain ⟨_, _, rfl, _⟩ := left.eq_finite
      exact .inl rfl
    · have sum := left.add right
      split at sum
      · exact .inr ⟨_, sum⟩
      · exact .inl sum

theorem div_infinite {units : Nat} (left : Measures x units) :
    Measures (x / .infinite false) 0 := by
  obtain ⟨negative, _, rfl, _⟩ := left.eq_finite
  change Measures (ofRatio (negative ^^ false) 0 1) 0
  rw [ofRatio_zero _ Nat.one_pos]
  exact measures_finite (signed_zero _)

theorem div {units : Nat} (left : Measures x units) (right : IsAmount y)
    (positive : y.atMost 0 = false) : IsAmount (x / y) := by
  rcases right with rfl | ⟨units', right⟩
  · exact .inr ⟨0, div_infinite left⟩
  · have share := left.div right (units_pos right positive)
    split at share
    · exact .inr ⟨_, share⟩
    · exact .inl share

theorem zero_div (left : Measures x 0) (right : IsAmount y) (positive : y.atMost 0 = false) :
    Measures (x / y) 0 := by
  rcases right with rfl | ⟨units', right⟩
  · exact div_infinite left
  · have counted := units_pos right positive
    have share := left.div right counted
    have kept := significant_of_fits (by decide : Fits 24 0) counted
    have room : 0 < ceiling := by decide
    rw [Nat.zero_mul] at share kept
    rwa [kept, if_pos room] at share

theorem place?_add_zero (left : IsAmount x) (right : Measures y 0) :
    (x + y).place? = x.place? := by
  rcases left with rfl | ⟨units, left⟩
  · obtain ⟨_, _, rfl, _⟩ := right.eq_finite
    rfl
  · have sum := left.add right
    have kept := significant_of_fits left.representable.2 Nat.one_pos
    rw [Nat.mul_one] at kept
    rw [Nat.add_zero, kept, if_pos left.representable.1] at sum
    rw [sum.2, left.2]

end IsAmount

/-- The part of itself by which rounding moves a number at most. -/
def slack : ℚ := 1 / 2 ^ 24

theorem slack_pos : 0 < slack := by norm_num [slack]

theorem slack_lt_one : slack < 1 := by norm_num [slack]

theorem whole_within (num : Nat) : (1 - slack) * num ≤ (significant 24 num 1 : ℚ) ∧
    (significant 24 num 1 : ℚ) ≤ (1 + slack) * num := by
  have error := significant_whole_error (by decide : 0 < 24) num
  rw [abs_le] at error
  unfold slack
  constructor <;> linarith [error.1, error.2]

theorem quotient_within (num : Nat) {den : Nat} (positive : 0 < den) :
    (1 - slack) * (num / den) - 1 / 2 ≤ (significant 24 num den : ℚ) ∧
      (significant 24 num den : ℚ) ≤ (1 + slack) * (num / den) + 1 / 2 := by
  have error := significant_error (by decide : 0 < 24) num positive
  have ratio : (0 : ℚ) ≤ num / den := by positivity
  have either : max (1 / 2 : ℚ) (num / den / 2 ^ 24) ≤ 1 / 2 + num / den / 2 ^ 24 :=
    max_le (le_add_of_nonneg_right (by positivity)) (le_add_of_nonneg_left (by norm_num))
  obtain ⟨below, above⟩ := abs_le.mp (error.trans either)
  unfold slack
  constructor <;> linarith

end Single

end ReactiveTree
