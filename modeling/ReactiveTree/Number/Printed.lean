import ReactiveTree.Number.Decimal

/-!
Singles as decimal text: with the fewest digits that read back as the same number, or with a fixed
number of places. Neither form has an exponent.
-/

namespace ReactiveTree.Single

/-- The reals that round to a positive count of units, in quarters of a unit. The ends belong to
the range when the count's last significant bit is zero, because a tie goes to the even count. -/
structure Range where
  least : Nat
  greatest : Nat
  closed : Bool

/-- The range below a power of two is half as wide, except at the bottom of the format, where all
numbers are equally far apart. -/
def roundingRange (units : Nat) : Range :=
  let low := Rounding.surplus 24 units
  let lead := units / Nat.pow 2 low
  let below := if lead = Nat.pow 2 23 ∧ 0 < low then Nat.pow 2 low else 2 * Nat.pow 2 low
  ⟨4 * units - below, 4 * units + 2 * Nat.pow 2 low, lead % 2 = 0⟩

/-- A point of the number line lies in the range. It comes multiplied by `scale`, to be whole. -/
def Range.holds (range : Range) (point scale : Nat) : Bool :=
  if range.closed then range.least * scale ≤ point && point ≤ range.greatest * scale
  else range.least * scale < point && point < range.greatest * scale

/-- The multiple of `10 ^ power` nearest to the count among those that read back, as the index of
that multiple. Of two equally near multiples the greater is taken. -/
def onGrid? (units : Nat) (power : Int) : Option Nat :=
  let step := if power < 0 then Nat.pow 2 151 else Nat.pow 10 power.toNat * Nat.pow 2 151
  let scale := if power < 0 then Nat.pow 10 power.natAbs else 1
  let exact := 4 * units * scale
  let under := exact / step
  let range := roundingRange units
  let lower := under ≠ 0 && range.holds (under * step) scale
  let upper := range.holds ((under + 1) * step) scale
  if lower && upper then
    if exact - under * step < (under + 1) * step - exact then some under else some (under + 1)
  else if lower then some under
  else if upper then some (under + 1)
  else none

def searchGrid (units : Nat) : Nat → Int → Nat × Int
  | 0, power => (0, power)
  | grids + 1, power =>
    match onGrid? units power with
    | some index => (index, power)
    | none => searchGrid units grids (power - 1)

/-- Digits and power of ten of the shortest decimal that reads back. The finest spacing of singles
is wider than `10 ^ -46`, so the search ends by then. -/
def shortest (units : Nat) : Nat × Int :=
  searchGrid units 90 39

def pointed (places digits : Nat) : List Char :=
  let text := Text.decimal digits
  let padded := List.replicate (places + 1 - text.length) '0' ++ text
  let whole := padded.take (padded.length - places)
  if places = 0 then whole else whole ++ '.' :: padded.drop (padded.length - places)

def minus (negative : Bool) (text : List Char) : String :=
  String.ofList (if negative then '-' :: text else text)

def text : Single → String
  | .notANumber => "NaN"
  | .infinite negative => minus negative ['i', 'n', 'f']
  | .finite negative units _ =>
    if units = 0 then minus negative ['0']
    else
      let (digits, power) := shortest units
      if power < 0 then minus negative (pointed power.natAbs digits)
      else minus negative (Text.decimal digits ++ List.replicate power.toNat '0')

/-- The text with `places` digits behind the point; a half goes to the even neighbour, and the sign
stays on a number that is rounded to zero. -/
def fixedText (places : Nat) : Single → String
  | .notANumber => "NaN"
  | .infinite negative => minus negative ['i', 'n', 'f']
  | .finite negative units _ =>
    minus negative (pointed places (Rounding.nearest (units * Nat.pow 10 places) (Nat.pow 2 149)))

end ReactiveTree.Single
