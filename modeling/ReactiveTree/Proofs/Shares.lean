import Mathlib.Algebra.Order.Ring.Pow
import ReactiveTree.Proofs.Precision
import ReactiveTree.Weights

/-!
Sums of shares under rounding. The levels of a list of weights are the running sums of their shares.
They never fall. While the weights are few and their sum is finite, what the largest weight leaves to
one is enough for all roundings before it, and its own share is not lost to them.
-/

namespace ReactiveTree

namespace Weights

open Rounding Single

/-- How far the shares of the first weights reach. -/
def level (sum : Single) (weights : List Single) (count : Nat) : Single :=
  (weights.take count).foldl (fun reached weight => reached + weight / sum) 0

theorem level_succ (sum : Single) {weights : List Single} {index : Nat}
    (inside : index < weights.length) :
    level sum weights (index + 1) = level sum weights index + weights[index] / sum := by
  rw [level, List.take_succ_eq_append_getElem inside, List.foldl_append]
  rfl

/-! ### How far rounding moves a level -/

theorem spread_le {count : Nat} (few : count * (count + 1) ≤ 2 ^ 23) :
    (1 + slack) ^ count * count ≤ (1 - slack) ^ count * (count + 1) := by
  have few' : (count : ℚ) * (count + 1) ≤ 2 ^ 23 := by exact_mod_cast few
  have bernoulli : 1 + (count : ℚ) * (-2 * slack) ≤ (1 + -2 * slack) ^ count :=
    one_add_mul_le_pow (by norm_num [slack]) count
  have paired : (1 + -2 * slack) ^ count * (1 + slack) ^ count ≤ (1 - slack) ^ count := by
    rw [← mul_pow]
    apply pow_le_pow_left₀ <;> norm_num [slack]
  have kept : (count : ℚ) ≤ (1 + count * (-2 * slack)) * (count + 1) := by
    unfold slack
    linarith
  have grown : (0 : ℚ) < (1 + slack) ^ count := by
    have := slack_pos
    positivity
  calc (1 + slack) ^ count * count
    _ ≤ (1 + slack) ^ count * ((1 + -2 * slack) ^ count * (count + 1)) := by
      apply mul_le_mul_of_nonneg_left _ grown.le
      exact kept.trans (mul_le_mul_of_nonneg_right bernoulli (by positivity))
    _ = (1 + -2 * slack) ^ count * (1 + slack) ^ count * (count + 1) := by ring
    _ ≤ (1 - slack) ^ count * (count + 1) := mul_le_mul_of_nonneg_right paired (by positivity)

/-! ### Levels of few weights -/

def weighed : List Single → Nat
  | [] => 0
  | weight :: rest => weight.units + weighed rest

theorem weighed_append (front back : List Single) :
    weighed (front ++ back) = weighed front + weighed back := by
  induction front with
  | nil => simp [weighed]
  | cons weight rest ih => simp [weighed, ih, Nat.add_assoc]

theorem weighed_take_succ {weights : List Single} {index : Nat} (inside : index < weights.length) :
    weighed (weights.take (index + 1)) = weighed (weights.take index) + weights[index].units := by
  rw [List.take_succ_eq_append_getElem inside, weighed_append]
  rfl

theorem weighed_take_le (weights : List Single) (count : Nat) :
    weighed (weights.take count) ≤ weighed weights := by
  conv_rhs => rw [← List.take_append_drop count weights, weighed_append]
  exact Nat.le_add_right _ _

theorem weighed_take_add_le {weights : List Single} {index : Nat}
    (inside : index < weights.length) :
    weighed (weights.take index) + weights[index].units ≤ weighed weights :=
  weighed_take_succ inside ▸ weighed_take_le weights (index + 1)

theorem weighed_le_mul {weights : List Single} {most : Nat}
    (heaviest : ∀ weight ∈ weights, weight.units ≤ most) :
    weighed weights ≤ weights.length * most := by
  induction weights with
  | nil => simp [weighed]
  | cons weight rest ih =>
    have first := heaviest weight List.mem_cons_self
    have others := ih fun other listed => heaviest other (List.mem_cons_of_mem _ listed)
    rw [weighed, List.length_cons, Nat.succ_mul]
    omega

theorem foldl_infinite {weights : List Single}
    (measured : ∀ weight ∈ weights, Measures weight weight.units) :
    weights.foldl (· + ·) (.infinite false) = .infinite false := by
  induction weights with
  | nil => rfl
  | cons weight rest ih =>
    obtain ⟨negative, representable, made, _⟩ := (measured weight List.mem_cons_self).eq_finite
    have kept : (.infinite false : Single) + weight = .infinite false := by
      rw [made]
      rfl
    rw [List.foldl_cons, kept]
    exact ih fun other listed => measured other (List.mem_cons_of_mem _ listed)

/-- A finite sum is off by no more than one rounding for each weight. -/
theorem foldl_within {weights : List Single}
    (measured : ∀ weight ∈ weights, Measures weight weight.units) {start : Single} {units : Nat}
    (starts : Measures start units) (finite : (weights.foldl (· + ·) start).isFinite) :
    ∃ sum, Measures (weights.foldl (· + ·) start) sum ∧
      (1 - slack) ^ weights.length * ((units : ℚ) + weighed weights) ≤ sum ∧
      (sum : ℚ) ≤ (1 + slack) ^ weights.length * (units + weighed weights) := by
  induction weights generalizing start units with
  | nil => exact ⟨units, starts, by simp [weighed], by simp [weighed]⟩
  | cons weight rest ih =>
    have measured' : ∀ weight ∈ rest, Measures weight weight.units :=
      fun other listed => measured other (List.mem_cons_of_mem _ listed)
    have first := starts.add (measured weight List.mem_cons_self)
    rw [List.foldl_cons] at finite ⊢
    split at first
    · obtain ⟨sum, sums, below, above⟩ := ih measured' first finite
      obtain ⟨low, high⟩ := whole_within (units + weight.units)
      have tail : (0 : ℚ) ≤ weighed rest := Nat.cast_nonneg _
      have shrunk : (0 : ℚ) ≤ (1 - slack) ^ rest.length :=
        pow_nonneg (sub_nonneg.mpr slack_lt_one.le) _
      have grown : (0 : ℚ) ≤ (1 + slack) ^ rest.length :=
        pow_nonneg (by linarith [slack_pos]) _
      -- the first sum is rounded like all later ones, so one more factor covers it
      refine ⟨sum, sums, ?_, ?_⟩
      · refine le_trans ?_ below
        rw [List.length_cons, pow_succ, mul_assoc]
        apply mul_le_mul_of_nonneg_left _ shrunk
        push_cast [weighed] at low ⊢
        linarith [mul_nonneg slack_pos.le tail]
      · refine above.trans ?_
        rw [List.length_cons, pow_succ, mul_assoc]
        apply mul_le_mul_of_nonneg_left _ grown
        push_cast [weighed] at high ⊢
        linarith [mul_nonneg slack_pos.le tail]
    · rename_i full
      rw [first, foldl_infinite measured'] at finite
      nomatch finite

/-- Few weights beside a finite sum of theirs. -/
structure Scale (weights : List Single) (sum : Single) (reach : Nat) : Prop where
  measured : ∀ weight ∈ weights, Measures weight weight.units
  few : weights.length * (weights.length + 1) ≤ 2 ^ 23
  filled : 0 < weighed weights
  summed : Measures sum reach
  low : (1 - slack) ^ weights.length * (weighed weights : ℚ) ≤ reach
  high : (reach : ℚ) ≤ (1 + slack) ^ weights.length * weighed weights

namespace Scale

variable {weights : List Single} {sum : Single} {reach : Nat} (scale : Scale weights sum reach)
include scale

theorem length_pos : 0 < weights.length := by
  rcases weights with - | ⟨weight, rest⟩
  · exact absurd scale.filled (by decide)
  · exact Nat.succ_pos _

theorem length_lt : weights.length < 2 ^ 12 := by
  have few := scale.few
  by_contra many
  have : 2 ^ 12 * (2 ^ 12 + 1) ≤ weights.length * (weights.length + 1) :=
    Nat.mul_le_mul (by omega) (by omega)
  omega

theorem pow_le_two : (1 + slack) ^ weights.length ≤ 2 := by
  have spread := spread_le scale.few
  have some : (1 : ℚ) ≤ weights.length := by exact_mod_cast scale.length_pos
  have shrunk : (1 - slack) ^ weights.length ≤ 1 :=
    pow_le_one₀ (sub_nonneg.mpr slack_lt_one.le) (by linarith [slack_pos])
  nlinarith

theorem weighed_le : (weighed weights : ℚ) ≤ 2 * reach := by
  have spread := spread_le scale.few
  have low := scale.low
  have some : (1 : ℚ) ≤ weights.length := by exact_mod_cast scale.length_pos
  have grown : (1 : ℚ) ≤ (1 + slack) ^ weights.length :=
    one_le_pow₀ (by linarith [slack_pos])
  have half : (1 : ℚ) ≤ 2 * (1 - slack) ^ weights.length := by nlinarith
  have all : (0 : ℚ) ≤ weighed weights := Nat.cast_nonneg _
  nlinarith

theorem reach_pos : 0 < reach := by
  have all : (0 : ℚ) < weighed weights := by exact_mod_cast scale.filled
  have double := scale.weighed_le
  have : (0 : ℚ) < reach := by linarith
  exact_mod_cast this

theorem ratio_le {units : Nat} (part : units ≤ weighed weights) :
    (units * 2 ^ 149 / reach : ℚ) ≤ 2 * 2 ^ 149 := by
  have part' : (units : ℚ) ≤ weighed weights := by exact_mod_cast part
  have some : (0 : ℚ) < reach := by exact_mod_cast scale.reach_pos
  rw [div_le_iff₀ some]
  linarith [scale.weighed_le]

/-- The share of a weight is finite and off by one rounding. -/
theorem share_within {index : Nat} (inside : index < weights.length) :
    ∃ share, Measures (weights[index] / sum) share ∧
      (1 - slack) * (weights[index].units * 2 ^ 149 / reach) - 1 / 2 ≤ (share : ℚ) ∧
      (share : ℚ) ≤ (1 + slack) * (weights[index].units * 2 ^ 149 / reach) + 1 / 2 := by
  have some := scale.reach_pos
  have measured := scale.measured _ (List.getElem_mem inside)
  have within := quotient_within (weights[index].units * Nat.pow 2 149) some
  have share := measured.div scale.summed some
  push_cast [Nat.pow_eq] at within
  rw [if_pos] at share
  · exact ⟨_, share, within⟩
  · have ratio := scale.ratio_le (Nat.le_of_add_left_le (weighed_take_add_le inside))
    have small : (significant 24 (weights[index].units * Nat.pow 2 149) reach : ℚ) <
        (ceiling : Nat) := by
      refine lt_of_le_of_lt within.2 ?_
      norm_num [slack, ceiling] at ratio ⊢
      linarith
    exact_mod_cast small

theorem pow_le_two_of_le {count : Nat} (within : count ≤ weights.length) :
    (1 + slack) ^ count ≤ 2 :=
  (pow_le_pow_right₀ (by linarith [slack_pos]) within).trans scale.pow_le_two

theorem level_within {count : Nat} (within : count ≤ weights.length) :
    ∃ units, Measures (level sum weights count) units ∧ (units : ℚ) ≤ (1 + slack) ^ count *
      ((1 + slack) * (weighed (weights.take count) * 2 ^ 149 / reach) + count / 2) := by
  induction count with
  | zero => exact ⟨0, measures_zero, by simp [weighed]⟩
  | succ count ih =>
    obtain ⟨units, reached, high⟩ := ih (Nat.le_of_lt within)
    obtain ⟨share, shared, -, above⟩ := scale.share_within within
    obtain ⟨-, rounded⟩ := whole_within (units + share)
    have grown : (1 : ℚ) ≤ (1 + slack) ^ count := one_le_pow₀ (by linarith [slack_pos])
    have part : (0 : ℚ) ≤ (1 + slack) * (weights[count].units * 2 ^ 149 / reach) + 1 / 2 := by
      have := slack_pos
      positivity
    have bound : (significant 24 (units + share) 1 : ℚ) ≤ (1 + slack) ^ (count + 1) *
        ((1 + slack) * (weighed (weights.take (count + 1)) * 2 ^ 149 / reach) +
          (count + 1 : Nat) / 2) := by
      calc (significant 24 (units + share) 1 : ℚ)
        _ ≤ (1 + slack) * (units + share) := by exact_mod_cast rounded
        _ ≤ (1 + slack) * ((1 + slack) ^ count *
              ((1 + slack) * (weighed (weights.take count) * 2 ^ 149 / reach) + count / 2) +
            (1 + slack) ^ count *
              ((1 + slack) * (weights[count].units * 2 ^ 149 / reach) + 1 / 2)) := by
          apply mul_le_mul_of_nonneg_left _ (by linarith [slack_pos])
          exact add_le_add high (above.trans (le_mul_of_one_le_left part grown))
        _ = _ := by
          rw [weighed_take_succ within]
          push_cast
          ring
    have next := reached.add shared
    -- the level stays far below what overflows, whatever is rounded
    rw [← level_succ, if_pos] at next
    · exact ⟨_, next, bound⟩
    · have ratio := scale.ratio_le (weighed_take_le weights (count + 1))
      have double := scale.pow_le_two_of_le within
      have short : ((count + 1 : Nat) : ℚ) ≤ 2 ^ 12 := by
        exact_mod_cast Nat.le_of_lt (Nat.lt_of_le_of_lt within scale.length_lt)
      have small : (significant 24 (units + share) 1 : ℚ) < (ceiling : Nat) := by
        calc (significant 24 (units + share) 1 : ℚ)
          _ ≤ _ := bound
          _ ≤ 2 * ((1 + slack) * (2 * 2 ^ 149) + 2 ^ 12 / 2) := by
            have wide := slack_pos
            gcongr
          _ < (ceiling : Nat) := by norm_num [slack, ceiling]
      exact_mod_cast small

theorem measures_level {count : Nat} (within : count ≤ weights.length) :
    Measures (level sum weights count) (level sum weights count).units := by
  obtain ⟨units, measures, _⟩ := scale.level_within within
  rwa [measures.units_eq]

theorem level_step {index : Nat} (inside : index < weights.length) :
    ∃ share : Nat, (1 - slack) * (weights[index].units * 2 ^ 149 / reach) - 1 / 2 ≤ (share : ℚ) ∧
      (level sum weights (index + 1)).units =
        significant 24 ((level sum weights index).units + share) 1 := by
  obtain ⟨share, shared, below, -⟩ := scale.share_within inside
  have next := (scale.measures_level (Nat.le_of_lt inside)).add shared
  have measures := scale.measures_level inside
  rw [← level_succ] at next
  split at next
  · exact ⟨share, below, next.units_eq⟩
  · rw [next] at measures
    nomatch measures.1

theorem level_mono {first second : Nat} (before : first ≤ second)
    (within : second ≤ weights.length) :
    (level sum weights first).units ≤ (level sum weights second).units := by
  induction second, before using Nat.le_induction with
  | base => exact Nat.le_refl _
  | succ second _ ih =>
    refine (ih (Nat.le_of_lt within)).trans ?_
    have fits := (scale.measures_level (Nat.le_of_lt within)).representable.2
    obtain ⟨share, -, next⟩ := scale.level_step within
    rw [next]
    exact le_significant (by decide) fits (by omega) Nat.one_pos

section Heaviest

variable {index : Nat} (inside : index < weights.length)
  (heaviest : ∀ weight ∈ weights, weight.units ≤ weights[index].units)
include inside heaviest

/-- Of the shares, the largest leaves at least one part in the square of their number to the
others' roundings. -/
theorem before_le : (1 + slack) ^ weights.length * weighed (weights.take index) *
    (weights.length * weights.length) ≤ (weights.length * weights.length - 1) * (reach : ℚ) := by
  have spread := spread_le scale.few
  have some : (1 : ℚ) ≤ weights.length := by exact_mod_cast scale.length_pos
  have least : (weighed weights : ℚ) ≤ weights.length * weights[index].units := by
    exact_mod_cast weighed_le_mul heaviest
  have part : (weighed (weights.take index) : ℚ) + weights[index].units ≤ weighed weights := by
    exact_mod_cast weighed_take_add_le inside
  have grown : (0 : ℚ) ≤ (1 + slack) ^ weights.length := pow_nonneg (by linarith [slack_pos]) _
  have others : (weighed (weights.take index) : ℚ) * weights.length ≤
      (weights.length - 1) * weighed weights := by
    have parts := mul_le_mul_of_nonneg_right part (by linarith : (0 : ℚ) ≤ weights.length)
    linarith
  calc (1 + slack) ^ weights.length * weighed (weights.take index) *
        ((weights.length : ℚ) * weights.length)
    _ = (1 + slack) ^ weights.length * weights.length *
          (weighed (weights.take index) * weights.length) := by ring
    _ ≤ (1 + slack) ^ weights.length * weights.length *
          ((weights.length - 1) * weighed weights) :=
      mul_le_mul_of_nonneg_left others (by positivity)
    _ ≤ (1 - slack) ^ weights.length * (weights.length + 1) *
          ((weights.length - 1) * weighed weights) :=
      mul_le_mul_of_nonneg_right spread (mul_nonneg (by linarith) (by positivity))
    _ = (weights.length * weights.length - 1) * ((1 - slack) ^ weights.length *
          weighed weights) := by ring
    _ ≤ _ := mul_le_mul_of_nonneg_left scale.low (by nlinarith)

theorem level_lt_one : (level sum weights index).units < 2 ^ 149 := by
  obtain ⟨units, reached, high⟩ := scale.level_within (Nat.le_of_lt inside)
  rw [reached.units_eq]
  have grown : (1 : ℚ) ≤ 1 + slack := by linarith [slack_pos]
  have positive : (0 : ℚ) < reach := by exact_mod_cast scale.reach_pos
  have some : (1 : ℚ) ≤ weights.length := by exact_mod_cast scale.length_pos
  have ratio : (0 : ℚ) ≤ weighed (weights.take index) * 2 ^ 149 / reach := by positivity
  have next : (index : ℚ) + 1 ≤ weights.length := by exact_mod_cast inside
  have short : (weights.length : ℚ) < 2 ^ 12 := by exact_mod_cast scale.length_lt
  have above : (units : ℚ) ≤ (1 + slack) ^ weights.length *
      (weighed (weights.take index) * 2 ^ 149 / reach) + index := by
    calc (units : ℚ)
      _ ≤ _ := high
      _ = (1 + slack) ^ (index + 1) * (weighed (weights.take index) * 2 ^ 149 / reach) +
            (1 + slack) ^ index * (index / 2) := by ring
      _ ≤ (1 + slack) ^ weights.length * (weighed (weights.take index) * 2 ^ 149 / reach) +
            2 * (index / 2) := by
        apply add_le_add
        · exact mul_le_mul_of_nonneg_right (pow_le_pow_right₀ grown inside) ratio
        · exact mul_le_mul_of_nonneg_right (scale.pow_le_two_of_le (Nat.le_of_lt inside))
            (by positivity)
      _ = _ := by ring
  have left : (1 + slack) ^ weights.length * (weighed (weights.take index) * 2 ^ 149 / reach) *
      (weights.length * weights.length) ≤
        (weights.length * weights.length - 1) * (2 ^ 149 : ℚ) := by
    have before := scale.before_le inside heaviest
    rw [mul_div_assoc', div_mul_eq_mul_div, div_le_iff₀ positive]
    linarith
  -- one part in the square of the number is more than half a unit for each weight
  have square : (0 : ℚ) < weights.length * weights.length := by nlinarith
  have room : (index : ℚ) * (weights.length * weights.length) < 2 ^ 149 := by
    have cube : (index : ℚ) * (weights.length * weights.length) ≤ 2 ^ 12 * (2 ^ 12 * 2 ^ 12) := by
      gcongr
      linarith
    exact cube.trans_lt (by norm_num)
  have small : (units : ℚ) < (2 ^ 149 : Nat) := by
    push_cast
    refine lt_of_mul_lt_mul_right ?_ square.le
    have scaled := mul_le_mul_of_nonneg_right above square.le
    linarith
  exact_mod_cast small

theorem level_lt_succ :
    (level sum weights index).units < (level sum weights (index + 1)).units := by
  obtain ⟨share, below, next⟩ := scale.level_step inside
  obtain ⟨low, -⟩ := whole_within ((level sum weights index).units + share)
  have positive : (0 : ℚ) < reach := by exact_mod_cast scale.reach_pos
  have least : (weighed weights : ℚ) ≤ weights.length * weights[index].units := by
    exact_mod_cast weighed_le_mul heaviest
  have short : (weights.length : ℚ) ≤ 2 ^ 12 := by exact_mod_cast scale.length_lt.le
  have small : ((level sum weights index).units : ℚ) < 2 ^ 149 := by
    exact_mod_cast scale.level_lt_one inside heaviest
  have part : (2 : ℚ) ^ 136 ≤ weights[index].units * 2 ^ 149 / reach := by
    have all : (0 : ℚ) ≤ weighed weights := Nat.cast_nonneg _
    have double := mul_le_mul_of_nonneg_right scale.pow_le_two all
    have many := mul_le_mul_of_nonneg_right short (Nat.cast_nonneg weights[index].units)
    rw [le_div_iff₀ positive]
    linarith [scale.high]
  have larger : ((level sum weights index).units : ℚ) < (level sum weights (index + 1)).units := by
    rw [next]
    push_cast at low
    unfold slack at below low
    linarith
  exact_mod_cast larger

end Heaviest

end Scale

end Weights

end ReactiveTree
