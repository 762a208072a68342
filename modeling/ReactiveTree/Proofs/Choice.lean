import Mathlib.Data.Fintype.EquivFin
import Mathlib.Data.Fintype.Lattice
import ReactiveTree.Proofs.Shares

/-!
Weighted choice under rounding. The bounds of the children are the levels of their weights, except
for the last one, which is one. A weight of zero moves no bound, so its child can only be picked if
it is the last: there a gap may be left between the sum of the shares and one. The child of the
largest weight can be picked if the weights are not too many, unless their sum is infinite: then all
shares are zero, and the gap is everything.
-/

namespace ReactiveTree

namespace Weights

open Single

theorem getElem?_accumulate (sum reached : Single) (weights : List Single) {index : Nat}
    (inside : index < weights.length) :
    (accumulate sum reached weights)[index]? = some (if index + 1 = weights.length then 1
      else (weights.take (index + 1)).foldl (fun reached weight => reached + weight / sum)
        reached) := by
  fun_induction accumulate sum reached weights generalizing index with
  | case1 => exact absurd inside (Nat.not_lt_zero _)
  | case2 =>
    obtain rfl : index = 0 := by simpa using inside
    rfl
  | case3 reached weight rest more next =>
    rename_i ih
    cases index with
    | zero =>
      have filled : rest ≠ [] := more
      simp [filled, next]
    | succ index =>
      rw [List.getElem?_cons_succ, ih (by simpa using inside)]
      simp [next]

theorem getElem?_bounds {weights bounds : List Single} {children : Nat}
    (bounded : Weights.bounds weights children = .ok bounds) {index : Nat}
    (inside : index < children) :
    bounds[index]? = some (if index + 1 = children then 1
      else level (total weights) weights (index + 1)) := by
  obtain ⟨rfl, _, _, rfl⟩ := bounds_eq_ok.mp bounded
  exact getElem?_accumulate _ _ _ inside

theorem pick_eq {bounds : List Single} {sample bound : Single} {index : Nat}
    (listed : bounds[index]? = some bound) (above : sample.less bound)
    (passed : ∀ earlier < index, ∀ bound, bounds[earlier]? = some bound → ¬ sample.less bound) :
    pick bounds sample = index := by
  obtain ⟨inside, rfl⟩ := List.getElem?_eq_some_iff.mp listed
  have found : bounds.findIdx? (fun bound => sample.less bound) = some index := by
    rw [List.findIdx?_eq_some_iff_getElem]
    refine ⟨inside, above, ?_⟩
    intro earlier before
    exact passed earlier before _ (List.getElem?_eq_getElem _)
  rw [pick, found, Option.getD_some]

theorem pick_first {bounds : List Single} {sample : Single}
    (reached : ∃ bound ∈ bounds, sample.less bound) :
    (∃ bound, bounds[pick bounds sample]? = some bound ∧ sample.less bound) ∧
      ∀ earlier < pick bounds sample, ∀ bound, bounds[earlier]? = some bound →
        ¬ sample.less bound := by
  unfold pick
  cases found : bounds.findIdx? fun bound => sample.less bound with
  | none =>
    obtain ⟨bound, listed, above⟩ := reached
    exact absurd above (by simp [List.findIdx?_eq_none_iff.mp found bound listed])
  | some index =>
    obtain ⟨inside, above, passed⟩ := List.findIdx?_eq_some_iff_getElem.mp found
    refine ⟨⟨_, List.getElem?_eq_getElem inside, above⟩, ?_⟩
    intro earlier before bound listed
    obtain ⟨_, rfl⟩ := List.getElem?_eq_some_iff.mp listed
    exact passed earlier before

/-! ### Weights of zero -/

section Weightless

variable {weights bounds : List Single} {children : Nat}

theorem measures_of_bounds (bounded : Weights.bounds weights children = .ok bounds) :
    ∀ weight ∈ weights, ∃ units, Measures weight units := by
  obtain ⟨_, valid, _, _⟩ := bounds_eq_ok.mp bounded
  intro weight listed
  obtain ⟨finite, positive⟩ := invalid?_eq_none.mp valid weight listed
  exact exists_measures finite positive

theorem total_isAmount (bounded : Weights.bounds weights children = .ok bounds) :
    IsAmount (total weights) := by
  have measured := measures_of_bounds bounded
  have sums (start : Single) (amount : IsAmount start) :
      IsAmount (weights.foldl (· + ·) start) := by
    clear bounded
    induction weights generalizing start with
    | nil => exact amount
    | cons weight rest ih =>
      have weighs : IsAmount weight := .inr (measured weight List.mem_cons_self)
      exact ih (fun other listed => measured other (List.mem_cons_of_mem _ listed)) _
        (amount.add weighs)
  exact sums 0 (.inr ⟨0, measures_zero⟩)

theorem lies_below (bounded : Weights.bounds weights children = .ok bounds) {sample : Single}
    (below : sample.less 1) : ∃ bound ∈ bounds, sample.less bound := by
  obtain ⟨_, filled⟩ := length_of_bounds bounded
  have last := getElem?_bounds bounded (Nat.sub_lt filled Nat.one_pos)
  rw [if_pos (Nat.sub_add_cancel filled)] at last
  exact ⟨1, List.mem_of_getElem? last, below⟩

theorem level_isAmount (bounded : Weights.bounds weights children = .ok bounds) {count : Nat}
    (within : count ≤ weights.length) : IsAmount (level (total weights) weights count) := by
  obtain ⟨_, _, positive, _⟩ := bounds_eq_ok.mp bounded
  induction count with
  | zero => exact .inr ⟨0, measures_zero⟩
  | succ count ih =>
    obtain ⟨units, measured⟩ := measures_of_bounds bounded _ (List.getElem_mem within)
    rw [level_succ _ within]
    exact (ih (Nat.le_of_lt within)).add
      (.div measured (total_isAmount bounded) positive)

theorem level_of_weightless (bounded : Weights.bounds weights children = .ok bounds) {index : Nat}
    (inside : index < weights.length) (weightless : Measures weights[index] 0) :
    (level (total weights) weights (index + 1)).place? =
      (level (total weights) weights index).place? := by
  obtain ⟨_, _, positive, _⟩ := bounds_eq_ok.mp bounded
  rw [level_succ _ inside]
  exact (level_isAmount bounded (Nat.le_of_lt inside)).place?_add_zero
    (IsAmount.zero_div weightless (total_isAmount bounded) positive)

/-- The child of a weight of zero is picked only if it is the last one. -/
theorem last_of_weightless (bounded : Weights.bounds weights children = .ok bounds)
    {sample weight : Single} (least : Single.atMost 0 sample) (below : sample.less 1)
    (listed : weights[pick bounds sample]? = some weight) (weightless : weight.same 0) :
    pick bounds sample + 1 = children := by
  obtain ⟨inside, rfl⟩ := List.getElem?_eq_some_iff.mp listed
  obtain ⟨length, _, _, _⟩ := bounds_eq_ok.mp bounded
  obtain ⟨units, measured⟩ := measures_of_bounds bounded _ (List.getElem_mem inside)
  obtain rfl : units = 0 := (measured.same_iff measures_zero).mp weightless
  obtain ⟨⟨bound, bounding, above⟩, passed⟩ := pick_first (lies_below bounded below)
  by_contra early
  rw [getElem?_bounds bounded (length ▸ inside), if_neg early, Option.some.injEq] at bounding
  rw [← bounding, less_of_place? (level_of_weightless bounded inside measured)] at above
  -- the sample is below the level before already
  cases before : pick bounds sample with
  | zero =>
    rw [before] at above
    exact not_less_zero least above
  | succ earlier =>
    rw [before] at above inside early passed
    refine passed earlier (Nat.lt_succ_self _) _ ?_ above
    rw [getElem?_bounds bounded (by omega), if_neg (by omega)]

end Weightless

/-! ### An infinite sum -/

theorem level_of_infinite {weights : List Single} {children : Nat} {bounds : List Single}
    (bounded : Weights.bounds weights children = .ok bounds)
    (infinite : total weights = .infinite false) {count : Nat} (within : count ≤ weights.length) :
    (level (total weights) weights count).place? = some 0 := by
  induction count with
  | zero => exact measures_zero.2
  | succ count ih =>
    obtain ⟨units, measured⟩ := measures_of_bounds bounded _ (List.getElem_mem within)
    rw [level_succ _ within, ← ih (Nat.le_of_lt within)]
    refine (level_isAmount bounded (Nat.le_of_lt within)).place?_add_zero ?_
    rw [infinite]
    exact IsAmount.div_infinite measured

theorem last_of_infinite {weights : List Single} {children : Nat} {bounds : List Single}
    (bounded : Weights.bounds weights children = .ok bounds)
    (infinite : (total weights).isFinite = false) {sample : Single}
    (least : Single.atMost 0 sample) (below : sample.less 1) :
    pick bounds sample + 1 = children := by
  have full : total weights = .infinite false := by
    rcases total_isAmount bounded with full | ⟨units, measures⟩
    · exact full
    · exact absurd measures.1 (by simp [infinite])
  obtain ⟨length, _, _, _⟩ := bounds_eq_ok.mp bounded
  obtain ⟨counted, filled⟩ := length_of_bounds bounded
  obtain ⟨⟨bound, bounding, above⟩, -⟩ := pick_first (lies_below bounded below)
  have inside := counted ▸ pick_lt (counted ▸ filled) sample
  by_contra early
  rw [getElem?_bounds bounded inside, if_neg early, Option.some.injEq] at bounding
  have none := level_of_infinite bounded full (length ▸ inside)
  rw [← bounding, less_of_place? (none.trans measures_zero.2.symm)] at above
  exact not_less_zero least above

/-! ### The largest weight -/

section Heaviest

variable {weights bounds : List Single} {children : Nat}

theorem exists_scale (bounded : Weights.bounds weights children = .ok bounds)
    (finite : (total weights).isFinite) (few : children * (children + 1) ≤ 2 ^ 23) :
    ∃ reach, Scale weights (total weights) reach := by
  obtain ⟨rfl, _, positive, _⟩ := bounds_eq_ok.mp bounded
  have measured : ∀ weight ∈ weights, Measures weight weight.units := by
    intro weight listed
    obtain ⟨units, measures⟩ := measures_of_bounds bounded weight listed
    rwa [measures.units_eq]
  obtain ⟨reach, summed, low, high⟩ := foldl_within measured measures_zero finite
  rw [Nat.cast_zero, zero_add] at low high
  refine ⟨reach, measured, few, ?_, summed, low, high⟩
  -- weights without units have no sum above zero
  have counted := units_pos summed positive
  by_contra none
  rw [Nat.eq_zero_of_not_pos none, Nat.cast_zero, mul_zero] at high
  have : (0 : ℚ) < reach := by exact_mod_cast counted
  linarith

theorem exists_heaviest (filled : 0 < weights.length) : ∃ index, ∃ inside : index < weights.length,
    ∀ weight ∈ weights, weight.units ≤ weights[index].units := by
  have : Nonempty (Fin weights.length) := ⟨⟨0, filled⟩⟩
  obtain ⟨index, most⟩ := Finite.exists_max fun index : Fin weights.length => weights[index].units
  refine ⟨index, index.isLt, ?_⟩
  intro weight listed
  obtain ⟨other, inside, rfl⟩ := List.getElem_of_mem listed
  exact most ⟨other, inside⟩

/-- A sample on the level before the largest weight picks its child. -/
theorem pick_level (bounded : Weights.bounds weights children = .ok bounds) {reach : Nat}
    (scale : Scale weights (total weights) reach) {index : Nat} (inside : index < weights.length)
    (heaviest : ∀ weight ∈ weights, weight.units ≤ weights[index].units) :
    pick bounds (level (total weights) weights index) = index := by
  obtain ⟨rfl, _, _, _⟩ := bounds_eq_ok.mp bounded
  have reached := scale.measures_level (Nat.le_of_lt inside)
  -- the bound of the index is above its level, and the bounds before are levels that do not pass it
  refine pick_eq (getElem?_bounds bounded inside) ?_ ?_
  · split
    · exact (reached.less_iff measures_one).mpr (scale.level_lt_one inside heaviest)
    · exact (reached.less_iff (scale.measures_level inside)).mpr
        (scale.level_lt_succ inside heaviest)
  · intro earlier before bound listed
    rw [getElem?_bounds bounded (by omega), if_neg (by omega), Option.some.injEq] at listed
    obtain rfl := listed
    rw [reached.less_iff (scale.measures_level (by omega))]
    exact Nat.not_lt.mpr (scale.level_mono before (Nat.le_of_lt inside))

/-- All samples pick a child. It has a weight above zero, unless it is the last child, which is the
one for the gap that the roundings leave below one. If the sum of the weights is infinite, the gap
is everything and the last child is always picked. If it is finite and the children are not too
many, some sample picks a child of the largest weight. -/
theorem pick_respects_weights (bounded : Weights.bounds weights children = .ok bounds) :
    (∀ sample : Single, Single.atMost 0 sample → sample.less 1 →
      pick bounds sample < children ∧ ∃ weight, weights[pick bounds sample]? = some weight ∧
        (weight.same 0 → pick bounds sample + 1 = children) ∧
        ((total weights).isFinite = false → pick bounds sample + 1 = children)) ∧
    ((total weights).isFinite → children * (children + 1) ≤ 2 ^ 23 →
      ∃ sample : Single, Single.atMost 0 sample ∧ sample.less 1 ∧ ∃ weight,
        weights[pick bounds sample]? = some weight ∧ ∀ other ∈ weights, other.atMost weight) := by
  obtain ⟨length, _, _, _⟩ := bounds_eq_ok.mp bounded
  obtain ⟨counted, filled⟩ := length_of_bounds bounded
  constructor
  · intro sample least below
    have inside := counted ▸ pick_lt (counted ▸ filled) sample
    have listed := List.getElem?_eq_getElem (length ▸ inside : pick bounds sample < weights.length)
    exact ⟨inside, _, listed, last_of_weightless bounded least below listed,
      fun infinite => last_of_infinite bounded infinite least below⟩
  · intro finite few
    obtain ⟨reach, scale⟩ := exists_scale bounded finite few
    obtain ⟨index, inside, heaviest⟩ := exists_heaviest (length ▸ filled)
    have reached := scale.measures_level (Nat.le_of_lt inside)
    refine ⟨level (total weights) weights index, ?_, ?_, weights[index], ?_, ?_⟩
    · exact (measures_zero.atMost_iff reached).mpr (Nat.zero_le _)
    · exact (reached.less_iff measures_one).mpr (scale.level_lt_one inside heaviest)
    · rw [pick_level bounded scale inside heaviest]
      exact List.getElem?_eq_getElem inside
    · intro other listed
      exact ((scale.measured other listed).atMost_iff
        (scale.measured _ (List.getElem_mem inside))).mpr (heaviest other listed)

theorem quarters_respect_weights :
    Weights.bounds [1, 2, 1] 3 = .ok (accumulate 4 0 [1, 2, 1]) ∧
    (∀ sample : Single, Single.atMost 0 sample → sample.less 1 →
      pick (accumulate 4 0 [1, 2, 1]) sample < 3 ∧
      ∃ weight, ([1, 2, 1] : List Single)[pick (accumulate 4 0 [1, 2, 1]) sample]? = some weight ∧
        (weight.same 0 → pick (accumulate 4 0 [1, 2, 1]) sample + 1 = 3)) ∧
    ∃ sample : Single, Single.atMost 0 sample ∧ sample.less 1 ∧ ∃ weight,
      ([1, 2, 1] : List Single)[pick (accumulate 4 0 [1, 2, 1]) sample]? = some weight ∧
        ∀ other ∈ ([1, 2, 1] : List Single), other.atMost weight := by
  have sum : total [1, 2, 1] = 4 := by decide +kernel
  have bounded : Weights.bounds [1, 2, 1] 3 = .ok (accumulate 4 0 [1, 2, 1]) :=
    bounds_eq_ok.mpr ⟨rfl, by decide +kernel, by decide +kernel, by rw [sum]⟩
  obtain ⟨picked, largest⟩ := pick_respects_weights bounded
  refine ⟨bounded, ?_, ?_⟩
  · intro sample least below
    obtain ⟨inside, weight, listed, weightless, _⟩ := picked sample least below
    exact ⟨inside, weight, listed, weightless⟩
  · exact largest (by decide +kernel) (by decide)

/-- The shares of 1, 10 and 1 end below one, and two weights of 3e38 overflow together: the weight
of zero behind them is picked in the gap. -/
theorem gaps_are_picked :
    (∃ bounds, Weights.bounds [1, 10, 1, 0] 4 = .ok bounds ∧
      Single.atMost 0 (ofBits 0x3f7fffff) ∧ (ofBits 0x3f7fffff).less 1 ∧
      ([1, 10, 1, 0] : List Single)[pick bounds (ofBits 0x3f7fffff)]? = some 0) ∧
    ∃ bounds, Weights.bounds [ofBits 0x7f61b1e6, ofBits 0x7f61b1e6, 0] 3 = .ok bounds ∧
      ∀ sample : Single, Single.atMost 0 sample → sample.less 1 →
        [ofBits 0x7f61b1e6, ofBits 0x7f61b1e6, 0][pick bounds sample]? = some 0 := by
  constructor
  · refine ⟨_, bounds_eq_ok.mpr ⟨rfl, by decide +kernel, by decide +kernel, rfl⟩, ?_⟩
    decide +kernel
  · have bounded : Weights.bounds [ofBits 0x7f61b1e6, ofBits 0x7f61b1e6, 0] 3 =
        .ok (accumulate _ 0 _) :=
      bounds_eq_ok.mpr ⟨rfl, by decide +kernel, by decide +kernel, rfl⟩
    refine ⟨_, bounded, ?_⟩
    intro sample least below
    have last : pick _ sample = 2 :=
      Nat.succ.inj (last_of_infinite bounded (by decide +kernel) least below)
    rw [last]
    rfl

end Heaviest

end Weights

end ReactiveTree
