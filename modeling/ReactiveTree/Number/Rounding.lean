/-!
Rounding a quotient to a whole number, and to a number of limited width. A number has width `width`
when it is a multiple of the power of two that leaves `width` significant bits; `significant` picks
the nearest such number, and `significant_fits` says that the pick has that width.
-/

namespace ReactiveTree.Rounding

/-- The whole number nearest to `num / den`. A half goes to the even neighbour. -/
def nearest (num den : Nat) : Nat :=
  let quotient := num / den
  let rest := num % den
  if 2 * rest < den then quotient
  else if den < 2 * rest then quotient + 1
  else quotient + quotient % 2

def surplus (width n : Nat) : Nat :=
  n.log2 + 1 - width

def Fits (width n : Nat) : Prop :=
  n % Nat.pow 2 (surplus width n) = 0

instance (width n : Nat) : Decidable (Fits width n) :=
  inferInstanceAs (Decidable (_ = _))

def significant (width num den : Nat) : Nat :=
  let low := surplus width (num / den)
  nearest num (den * Nat.pow 2 low) * Nat.pow 2 low

theorem nearest_le {num den bound : Nat} (below : num / den < bound) : nearest num den ≤ bound := by
  simp only [nearest]
  split
  · omega
  · split
    · omega
    · omega

theorem le_nearest (num den : Nat) : num / den ≤ nearest num den := by
  simp only [nearest]
  split
  · omega
  · split <;> omega

theorem log2_lt_succ (n : Nat) : n < Nat.pow 2 (n.log2 + 1) := by
  cases n with
  | zero => simp
  | succ n => exact Nat.lt_log2_self

theorem fits_of_lt {width n : Nat} (small : n < Nat.pow 2 width) : Fits width n := by
  rcases Nat.eq_zero_or_pos n with zero | positive
  · simp [Fits, zero]
  · have bound := (Nat.log2_lt (Nat.ne_of_gt positive)).2 small
    have low : surplus width n = 0 := by unfold surplus; omega
    simp [Fits, low, Nat.mod_one]

theorem fits_shift {width part low : Nat} (filled : Nat.pow 2 (width - 1) ≤ part)
    (within : part ≤ Nat.pow 2 width) (positive : 0 < width) :
    Fits width (part * Nat.pow 2 low) := by
  simp only [Fits, Nat.pow_eq] at filled within ⊢
  have partPositive : 0 < part := Nat.lt_of_lt_of_le (Nat.pow_pos (by decide)) filled
  have shifted : part * 2 ^ low ≠ 0 := Nat.ne_of_gt (Nat.mul_pos partPositive (Nat.pow_pos (by decide)))
  rcases Nat.lt_or_eq_of_le within with strict | full
  · have logPart : (part * 2 ^ low).log2 = width - 1 + low := by
      apply (Nat.log2_eq_iff shifted).2
      constructor
      · rw [Nat.pow_add]; exact Nat.mul_le_mul_right _ filled
      · have : width - 1 + low + 1 = width + low := by omega
        rw [this, Nat.pow_add]
        exact Nat.mul_lt_mul_of_pos_right strict (Nat.pow_pos (by decide))
    have : surplus width (part * 2 ^ low) = low := by
      rw [surplus, logPart]; omega
    simp [this]
  · subst part
    have logFull : (2 ^ width * 2 ^ low).log2 = width + low := by
      rw [← Nat.pow_add]; exact Nat.log2_two_pow
    have : surplus width (2 ^ width * 2 ^ low) = low + 1 := by
      rw [surplus, logFull]; omega
    rw [this, ← Nat.pow_add]
    exact Nat.mod_eq_zero_of_dvd (Nat.pow_dvd_pow 2 (by omega))

theorem significant_fits {width : Nat} (positive : 0 < width) (num den : Nat) :
    Fits width (significant width num den) := by
  unfold significant
  rcases Nat.eq_zero_or_pos (surplus width (num / den)) with none | some
  · have small : num / den < Nat.pow 2 width := by
      have grow := log2_lt_succ (num / den)
      have : (num / den).log2 + 1 ≤ width := by unfold surplus at none; omega
      exact Nat.lt_of_lt_of_le grow (Nat.pow_le_pow_right (by decide) this)
    simp only [none, Nat.pow_eq, Nat.pow_zero, Nat.mul_one]
    rcases Nat.lt_or_eq_of_le (nearest_le small) with strict | full
    · exact fits_of_lt strict
    · rw [full]
      have filled : Fits width (Nat.pow 2 width * Nat.pow 2 0) :=
        fits_shift (Nat.pow_le_pow_right (by decide) (by omega)) (Nat.le_refl _) positive
      simpa using filled
  · have quotientNonzero : num / den ≠ 0 := by
      intro zero
      have : Nat.log2 0 = 0 := by decide
      rw [zero, surplus, this] at some
      omega
    have logBound : (num / den).log2 = width - 1 + surplus width (num / den) := by
      unfold surplus at some ⊢; omega
    have lower : Nat.pow 2 (width - 1) ≤ num / (den * Nat.pow 2 (surplus width (num / den))) := by
      simp only [Nat.pow_eq]
      rw [← Nat.div_div_eq_div_mul, Nat.le_div_iff_mul_le (Nat.pow_pos (by decide)), ← Nat.pow_add,
        ← logBound]
      exact Nat.log2_self_le quotientNonzero
    have upper : num / (den * Nat.pow 2 (surplus width (num / den))) < Nat.pow 2 width := by
      simp only [Nat.pow_eq]
      rw [← Nat.div_div_eq_div_mul, Nat.div_lt_iff_lt_mul (Nat.pow_pos (by decide)), ← Nat.pow_add]
      have : width + surplus width (num / den) = (num / den).log2 + 1 := by omega
      rw [this]
      exact log2_lt_succ _
    exact fits_shift (Nat.le_trans lower (le_nearest _ _)) (nearest_le upper) positive

end ReactiveTree.Rounding
