import Mathlib.Data.Nat.Log
import ReactiveTree.Proofs.Precision

/-!
Numbers brought back into one turn. What a division of two representable counts leaves is
representable, so the remainder is exact, and only the step that lifts a negative remainder by one
turn rounds. Rounding does not pass the turn, but it reaches it from close by.
-/

namespace ReactiveTree

namespace Rounding

variable {width num den units n m : Nat}

theorem surplus_mono (width : Nat) (order : n ≤ m) : surplus width n ≤ surplus width m := by
  have log : n.log2 ≤ m.log2 := by
    simpa only [Nat.log2_eq_log_two] using Nat.log_mono_right order
  unfold surplus
  omega

theorem surplus_le {place : Nat} (wide : 0 < width) (small : n < 2 ^ (width + place)) :
    surplus width n ≤ place := by
  rcases Nat.eq_zero_or_pos n with rfl | positive
  · have none : Nat.log2 0 = 0 := by decide
    unfold surplus
    omega
  · have log := (Nat.log2_lt (Nat.ne_of_gt positive)).mpr small
    unfold surplus
    omega

theorem le_surplus (wide : 0 < width) {place : Nat} (large : 2 ^ (width - 1) * 2 ^ place ≤ n) :
    place ≤ surplus width n := by
  rw [← Nat.pow_add] at large
  have positive : n ≠ 0 := Nat.ne_of_gt (Nat.lt_of_lt_of_le (Nat.two_pow_pos _) large)
  have log := (Nat.le_log2 positive).mpr large
  unfold surplus
  omega

theorem significant_le (fits : Fits width units) (above : num ≤ units * den) (positive : 0 < den) :
    significant width num den ≤ units := by
  rcases Nat.lt_or_ge (num / den) units with below | reached
  · -- the bits that the quotient loses are zero in the number
    obtain ⟨count, multiple⟩ : 2 ^ surplus width (num / den) ∣ units :=
      Nat.dvd_trans (Nat.pow_dvd_pow 2 (surplus_mono width (Nat.le_of_lt below)))
        (Nat.dvd_of_mod_eq_zero fits)
    have front : num / (den * 2 ^ surplus width (num / den)) < count := by
      rw [← Nat.div_div_eq_div_mul, Nat.div_lt_iff_lt_mul (Nat.two_pow_pos _), Nat.mul_comm,
        ← multiple]
      exact below
    calc significant width num den
      _ ≤ count * 2 ^ surplus width (num / den) := Nat.mul_le_mul_right _ (nearest_le front)
      _ = units := by rw [Nat.mul_comm, ← multiple]
  · have exact : num = units * den :=
      Nat.le_antisymm above ((Nat.le_div_iff_mul_le positive).mp reached)
    rw [exact, significant_of_fits fits positive]

/-- What a division leaves has no bits that the divisor or the dividend lacks. -/
theorem Fits.mod (dividend : Fits width n) (divisor : Fits width m) : Fits width (n % m) := by
  rcases Nat.lt_or_ge n m with less | more
  · rwa [Nat.mod_eq_of_lt less]
  rcases Nat.eq_zero_or_pos m with rfl | positive
  · rwa [Nat.mod_zero]
  have low : 2 ^ surplus width m ∣ n :=
    Nat.dvd_trans (Nat.pow_dvd_pow 2 (surplus_mono width more)) (Nat.dvd_of_mod_eq_zero dividend)
  have left : 2 ^ surplus width m ∣ n % m :=
    (Nat.dvd_mod_iff (Nat.dvd_of_mod_eq_zero divisor)).mpr low
  have shorter := surplus_mono width (Nat.le_of_lt (Nat.mod_lt n positive))
  exact Nat.mod_eq_zero_of_dvd (Nat.dvd_trans (Nat.pow_dvd_pow 2 shorter) left)

theorem significant_whole_moved {place : Nat} (wide : 0 < width)
    (small : num < 2 ^ (width + place)) :
    2 * significant width num 1 ≤ 2 * num + 2 ^ place := by
  have moved := (abs_le.mp (significant_moved width num Nat.one_pos)).2
  rw [Nat.cast_one, div_one, Nat.div_one] at moved
  have step : (2 ^ surplus width num : ℚ) ≤ 2 ^ place :=
    pow_le_pow_right₀ (by norm_num) (surplus_le wide small)
  have doubled : (2 * significant width num 1 : ℚ) ≤ 2 * num + 2 ^ place := by linarith
  exact_mod_cast doubled

/-- Behind an odd multiple, a number that lacks half or less goes on to the next one. -/
theorem nearest_sub_eq {last : Nat} (odd : last % 2 = 1) (some : 0 < n) (close : 2 * n ≤ den) :
    nearest ((last + 1) * den - n) den = last + 1 := by
  have split : (last + 1) * den - n = den * last + (den - n) := by
    rw [Nat.succ_mul, Nat.mul_comm]
    omega
  have quotient : ((last + 1) * den - n) / den = last := by
    rw [split, Nat.mul_add_div (by omega), Nat.div_eq_of_lt (by omega), Nat.add_zero]
  have rest : ((last + 1) * den - n) % den = den - n := by
    rw [split, Nat.mul_add_mod, Nat.mod_eq_of_lt (by omega)]
  simp only [nearest, quotient, rest]
  split
  · omega
  · split <;> omega

theorem significant_sub_eq_iff {last place : Nat} (wide : 0 < width)
    (filled : 2 ^ (width - 1) ≤ last) (within : last < 2 ^ width) (odd : last % 2 = 1)
    (some : 0 < n) :
    significant width ((last + 1) * 2 ^ place - n) 1 = (last + 1) * 2 ^ place ↔
      2 * n ≤ 2 ^ place := by
  have most : (last + 1) * 2 ^ place ≤ 2 ^ (width + place) := by
    rw [Nat.pow_add]
    exact Nat.mul_le_mul_right _ within
  have least : 2 ^ (width - 1) * 2 ^ place ≤ last * 2 ^ place := Nat.mul_le_mul_right _ filled
  have step : 2 ^ place ≤ last * 2 ^ place := Nat.le_mul_of_pos_left _ (by omega)
  have next : (last + 1) * 2 ^ place = last * 2 ^ place + 2 ^ place := Nat.succ_mul _ _
  have positive : 0 < 2 ^ place := Nat.two_pow_pos place
  have small : (last + 1) * 2 ^ place - n < 2 ^ (width + place) := by omega
  constructor
  · intro reached
    have moved := significant_whole_moved wide small
    omega
  · intro close
    have kept : surplus width ((last + 1) * 2 ^ place - n) = place :=
      Nat.le_antisymm (surplus_le wide small) (le_surplus wide (by omega))
    simp only [significant, Nat.div_one, kept, Nat.one_mul, Nat.pow_eq,
      nearest_sub_eq odd some close]

end Rounding

namespace Single

open Rounding

variable {x y : Single} {units count : Nat}

theorem ceiling_eq : ceiling = 2 ^ 24 * 2 ^ 253 := by decide

theorem Representable.add_place_le (representable : Representable units) :
    units + 2 ^ 253 ≤ ceiling := by
  obtain ⟨room, fits⟩ := representable
  rw [ceiling_eq] at room ⊢
  rcases Nat.lt_or_ge units (2 ^ 23 * 2 ^ 253) with small | large
  · omega
  · have places : 253 ≤ surplus 24 units := le_surplus (by decide) large
    obtain ⟨part, rfl⟩ :=
      Nat.dvd_trans (Nat.pow_dvd_pow 2 places) (Nat.dvd_of_mod_eq_zero fits)
    have below : part < 2 ^ 24 := by
      rw [Nat.mul_comm] at room
      exact Nat.lt_of_mul_lt_mul_right room
    have next : 2 ^ 253 * (part + 1) ≤ 2 ^ 253 * 2 ^ 24 := Nat.mul_le_mul_left _ below
    rwa [Nat.mul_succ, Nat.mul_comm _ (2 ^ 24)] at next

theorem isFinite_ofRatio {num : Nat} (negative : Bool) (room : significant 24 num 1 < ceiling) :
    (ofRatio negative num 1).isFinite := by
  simp [ofRatio, room, isFinite]

theorem isFinite_add (small : Measures x units) (least : units < 2 ^ 252) (finite : y.isFinite) :
    (x + y).isFinite := by
  obtain ⟨negative, _, rfl, placed⟩ := small.eq_finite
  cases y with
  | notANumber | infinite => nomatch finite
  | finite negative' count representable =>
    change (Single.add _ _).isFinite
    simp only [Single.add, placed]
    split
    · exact isFinite_ofRatio _ (by decide)
    · have most := representable.add_place_le
      rw [ceiling_eq] at most
      have size : ((units : Int) + signed negative' count).natAbs ≤ units + count := by
        unfold signed
        split <;> omega
      have moved := significant_whole_moved (by decide : 0 < 24)
        (by omega : ((units : Int) + signed negative' count).natAbs < 2 ^ (24 + 253))
      apply isFinite_ofRatio
      rw [ceiling_eq]
      omega

theorem Representable.mod (dividend : Representable units) (divisor : Representable count) :
    Representable (units % count) :=
  ⟨Nat.lt_of_le_of_lt (Nat.mod_le _ _) dividend.1, dividend.2.mod divisor.2⟩

theorem remainder_finite {negative negative' : Bool} (dividend : Representable units)
    (divisor : Representable count) (positive : 0 < count) :
    remainder (.finite negative units dividend) (.finite negative' count divisor) =
      .finite negative (units % count) (dividend.mod divisor) := by
  have exact := ofRatio_of_representable (dividend.mod divisor) negative Nat.one_pos
  rw [Nat.mul_one] at exact
  simp only [remainder, Nat.ne_of_gt positive, if_false, exact]

theorem less_zero_iff {negative : Bool} {representable : Representable units} :
    (finite negative units representable).less 0 ↔ negative = true ∧ 0 < units := by
  rw [less, compareBy, measures_zero.2]
  cases negative <;> simp [place?, signed]

section Turns

variable {turn : Single} (turning : Measures turn count) (positive : 0 < count)
include turning positive

theorem measures_lifted (representable : Representable units) (part : units < count)
    (filled : 0 < units) :
    Measures (finite true units representable + turn.abs) (significant 24 (count - units) 1) := by
  have room : significant 24 (count - units) 1 < ceiling :=
    Nat.lt_of_le_of_lt
      (significant_le turning.representable.2 (by omega) Nat.one_pos) turning.representable.1
  obtain ⟨negative, _, rfl, placed⟩ := turning.eq_finite
  obtain rfl := sign_of_signed placed positive
  change Measures (Single.add _ _) _
  have left : signed true units + signed false count = (count - units : Nat) := by
    rw [Nat.cast_sub (Nat.le_of_lt part), sub_eq_neg_add]
    rfl
  have some : ((count - units : Nat) : Int) ≠ 0 := by omega
  have sign : ¬ ((count - units : Nat) : Int) < 0 := by omega
  simp only [abs, Single.add, left, some, sign, if_false, decide_false, Int.natAbs_natCast]
  exact .of_ratio room

/-- A finite number is brought back into one turn. Only a negative remainder is rounded. -/
theorem measures_wrap (finite : x.isFinite) :
    ∃ negative rest, ∃ representable : Representable rest,
      x.remainder turn = .finite negative rest representable ∧ rest < count ∧
      Measures (x.wrap turn)
        (if negative = true ∧ 0 < rest then significant 24 (count - rest) 1 else rest) := by
  cases x with
  | notANumber | infinite => nomatch finite
  | finite negative units dividend =>
    obtain ⟨_, divisor, made, _⟩ := turning.eq_finite
    have part := Nat.mod_lt units positive
    have exact : remainder (.finite negative units dividend) turn =
        .finite negative (units % count) (dividend.mod divisor) := by
      rw [made]
      exact remainder_finite dividend divisor positive
    refine ⟨negative, units % count, _, exact, part, ?_⟩
    unfold wrap
    rw [exact]
    simp only [less_zero_iff]
    split
    · rename_i below
      obtain ⟨rfl, filled⟩ := below
      exact measures_lifted turning positive _ part filled
    · rename_i above
      refine measures_finite ?_
      cases negative with
      | false => rfl
      | true =>
        rw [Nat.eq_zero_of_not_pos fun filled => above ⟨rfl, filled⟩]
        rfl

/-- No number leaves the turn, but rounding may take one to its end. -/
theorem exists_measures_wrap (finite : x.isFinite) :
    ∃ units ≤ count, Measures (x.wrap turn) units := by
  obtain ⟨_, rest, _, _, part, wrapped⟩ := measures_wrap turning positive finite
  refine ⟨_, ?_, wrapped⟩
  split
  · exact significant_le turning.representable.2 (by omega) Nat.one_pos
  · exact Nat.le_of_lt part

end Turns

end Single

end ReactiveTree
