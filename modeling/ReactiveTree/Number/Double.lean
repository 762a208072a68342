import ReactiveTree.Number.Decimal

/-!
Finite IEEE double-precision numbers as far as documents carry them: a sign and an exact count of
units, the smallest positive number `2 ^ -1074`.
-/

namespace ReactiveTree

structure Double where
  negative : Bool
  units : Nat
  deriving DecidableEq, Repr

namespace Double

def one : Nat := Nat.pow 2 1074

def ceiling : Nat := Nat.pow 2 1024 * one

def round (num den : Nat) : Nat :=
  Rounding.significant 53 num den

def ofWhole (n : Nat) : Nat := round (n * one) 1

def lower (units power : Nat) : Nat :=
  round (units * one) (ofWhole (Nat.pow 10 power))

def raise (units power : Nat) : Nat :=
  round (units * ofWhole (Nat.pow 10 power)) one

/-- Reads a decimal by two roundings: its digits as a whole number, and then that number times or by
a power of ten. Powers beyond `10 ^ 308` are divided by in two steps; if the digits fit in 64 bits,
nothing is left after those. There is no result beyond the finite numbers. -/
def ofDecimal? (d : Decimal) : Option Double :=
  let units := ofWhole d.digits
  if units = 0 then some ⟨d.negative, 0⟩
  else if 0 ≤ d.exponent then
    if 308 < d.exponent then none
    else
      let scaled := raise units d.exponent.toNat
      if scaled < ceiling then some ⟨d.negative, scaled⟩ else none
  else
    let power := d.exponent.natAbs
    if power ≤ 308 then some ⟨d.negative, lower units power⟩
    else if power ≤ 616 then some ⟨d.negative, lower (lower units 308) (power - 308)⟩
    else some ⟨d.negative, 0⟩

/-- The double nearest to a decimal is finite: the decimal is nearer to zero than the middle between
the largest finite number and the power of two behind it. -/
def fits (d : Decimal) : Bool :=
  d.digits = 0 || d.magnitude ≤ 308 ||
    (d.magnitude = 309 &&
      let (num, den) := d.ratio 1
      num < (Nat.pow 2 1024 - Nat.pow 2 970) * den)

def toSingle (x : Double) : Single :=
  Single.ofRatio x.negative x.units (Nat.pow 2 925)

def ofSingle? : Single → Option Double
  | .finite negative units _ => some ⟨negative, units * Nat.pow 2 925⟩
  | _ => none

end Double

end ReactiveTree
