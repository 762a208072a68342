import ReactiveTree.Number.Printed

/-!
Weighted choice: weights become cumulative bounds in `[0, 1]`, and a sample picks the first child
whose bound lies above it. All sums and quotients are those of single precision.
-/

namespace ReactiveTree

inductive WeightError where
  | lengthMismatch (weights children : Nat)
  | invalidWeight (index : Nat) (value : Single)
  | zeroSum
  deriving DecidableEq

def WeightError.message : WeightError → String
  | .lengthMismatch weights children =>
    toString weights ++ " weight(s) for " ++ toString children ++ " child(ren)"
  | .invalidWeight index value =>
    "weight #" ++ toString index ++ " is " ++ value.text ++
      "; weights must be finite and non-negative"
  | .zeroSum => "weights sum to zero"

namespace Weights

def invalid? : Nat → List Single → Option (Nat × Single)
  | _, [] => none
  | index, weight :: rest =>
    if !weight.isFinite || weight.less 0 then some (index, weight) else invalid? (index + 1) rest

def total (weights : List Single) : Single :=
  weights.foldl (· + ·) 0

/-- The running sums of the weights' shares of `sum`, the last one set to `1`. -/
def accumulate (sum : Single) : Single → List Single → List Single
  | _, [] => []
  | _, [_] => [1]
  | reached, weight :: rest =>
    let reached := reached + weight / sum
    reached :: accumulate sum reached rest

def bounds (weights : List Single) (children : Nat) : Except WeightError (List Single) :=
  if weights.length ≠ children then .error (.lengthMismatch weights.length children)
  else match invalid? 0 weights with
    | some (index, value) => .error (.invalidWeight index value)
    | none =>
      if (total weights).atMost 0 then .error .zeroSum
      else .ok (accumulate (total weights) 0 weights)

/-- The child that a sample picks: the last one if no bound lies above the sample. -/
def pick (bounds : List Single) (sample : Single) : Nat :=
  (bounds.findIdx? fun bound => sample.less bound).getD (bounds.length - 1)

theorem length_accumulate (sum reached : Single) (weights : List Single) :
    (accumulate sum reached weights).length = weights.length := by
  fun_induction accumulate sum reached weights with
  | case1 | case2 => rfl
  | case3 _ _ _ _ _ ih => rw [List.length_cons, List.length_cons, ih]

theorem invalid?_eq_none {index : Nat} {weights : List Single} :
    invalid? index weights = none ↔ ∀ weight ∈ weights, weight.isFinite ∧ ¬ weight.less 0 := by
  induction weights generalizing index with
  | nil => simp [invalid?]
  | cons weight rest ih =>
    rw [invalid?, List.forall_mem_cons, ← @ih (index + 1)]
    cases finite : weight.isFinite <;> cases negative : weight.less 0 <;> simp

theorem bounds_eq_ok {weights : List Single} {children : Nat} {made : List Single} :
    bounds weights children = .ok made ↔ weights.length = children ∧ invalid? 0 weights = none ∧
      (total weights).atMost 0 = false ∧ made = accumulate (total weights) 0 weights := by
  unfold bounds
  split
  · rename_i unequal
    simp [unequal]
  · rename_i equal
    obtain rfl := Decidable.not_not.mp equal
    split
    · rename_i invalid
      simp [invalid]
    · rename_i valid
      split <;> rename_i sum <;> simp [sum, valid, eq_comm]

theorem length_of_bounds {weights : List Single} {children : Nat} {made : List Single}
    (bounded : bounds weights children = .ok made) : made.length = children ∧ 0 < children := by
  obtain ⟨rfl, _, positive, rfl⟩ := bounds_eq_ok.mp bounded
  refine ⟨length_accumulate _ _ _, ?_⟩
  cases weights with
  | nil => exact absurd positive (by decide)
  | cons weight rest => exact Nat.succ_pos _

theorem pick_lt {bounds : List Single} (filled : 0 < bounds.length) (sample : Single) :
    pick bounds sample < bounds.length := by
  unfold pick
  cases found : bounds.findIdx? fun bound => sample.less bound with
  | none => exact Nat.sub_lt filled Nat.one_pos
  | some index => exact (List.findIdx?_eq_some_iff_findIdx_eq.mp found).1

end Weights

end ReactiveTree
