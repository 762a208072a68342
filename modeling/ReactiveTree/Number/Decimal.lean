import ReactiveTree.Number.Single
import ReactiveTree.Text.Blank
import ReactiveTree.Text.Digits

/-!
Decimal numerals and the binary numbers nearest to them.
-/

namespace ReactiveTree

/-- The number `± digits * 10 ^ exponent`. -/
structure Decimal where
  negative : Bool
  digits : Nat
  exponent : Int
  deriving DecidableEq, Repr

namespace Decimal

/-- Position of the leading digit: a nonzero numeral lies in `[10 ^ (m - 1), 10 ^ m)` for its
magnitude `m`. -/
def magnitude (d : Decimal) : Int :=
  (Text.decimal d.digits).length + d.exponent

def ratio (d : Decimal) (scale : Nat) : Nat × Nat :=
  if d.exponent < 0 then (d.digits * scale, Nat.pow 10 d.exponent.natAbs)
  else (d.digits * Nat.pow 10 d.exponent.toNat * scale, 1)

/-- The nearest single. Numerals from `10 ^ 40` on are past the largest finite number and those
below `10 ^ -50` nearer to zero than to any other number, whatever their digits. -/
def toSingle (d : Decimal) : Single :=
  if d.digits = 0 then Single.ofRatio d.negative 0 1
  else if 40 < d.magnitude then .infinite d.negative
  else if d.magnitude < -50 then Single.ofRatio d.negative 0 1
  else
    let (num, den) := d.ratio (Nat.pow 2 149)
    Single.ofRatio d.negative num den

/-- Reads digits with an optional point and an optional exponent; at least one digit stands beside
the point, and at least one in the exponent. -/
def unsigned? (negative : Bool) (text : List Char) : Option Decimal :=
  let whole := text.takeWhile Text.isDecimalDigit
  let rest := text.dropWhile Text.isDecimalDigit
  let (fraction, rest) := match rest with
    | '.' :: rest => (rest.takeWhile Text.isDecimalDigit, rest.dropWhile Text.isDecimalDigit)
    | rest => ([], rest)
  let digits := Text.digitsValue 10 (whole ++ fraction)
  if whole.isEmpty && fraction.isEmpty then none
  else match rest with
    | [] => some ⟨negative, digits, -(fraction.length : Int)⟩
    | mark :: rest =>
      if mark = 'e' ∨ mark = 'E' then
        (Text.integer? rest).map fun exponent => ⟨negative, digits, exponent - fraction.length⟩
      else none

end Decimal

def Single.parse? (text : List Char) : Option Single :=
  let (negative, rest) := Text.sign text
  if Text.lower rest = ['i', 'n', 'f'] ∨ Text.lower rest = "infinity".toList then
    some (.infinite negative)
  else if Text.lower rest = ['n', 'a', 'n'] then some .notANumber
  else (Decimal.unsigned? negative rest).map Decimal.toSingle

end ReactiveTree
