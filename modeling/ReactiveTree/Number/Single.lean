import ReactiveTree.Number.Rounding

/-!
IEEE single-precision numbers, computed exactly. Every finite number is a whole count of *units*,
the smallest positive number `2 ^ -149`, and a count is representable when its bits beyond the
leading 24 are zero. An operation works on the exact counts and rounds once, to the nearest
representable count, a tie going to the even one.

There is one not-a-number, so `=` tells `0` from `-0` and the comparison `==` of the format is
`Single.same`.
-/

namespace ReactiveTree

open Rounding

/-- Units in the first power of two beyond the finite numbers, `2 ^ 128`. -/
def Single.ceiling : Nat :=
  Nat.pow 2 128 * Nat.pow 2 149

def Single.Representable (units : Nat) : Prop :=
  units < Single.ceiling ∧ Fits 24 units

instance (units : Nat) : Decidable (Single.Representable units) :=
  inferInstanceAs (Decidable (_ ∧ _))

inductive Single where
  | notANumber
  | infinite (negative : Bool)
  | finite (negative : Bool) (units : Nat) (representable : Single.Representable units)
  deriving DecidableEq

namespace Single

/-- The nearest single to `± num / den` units; beyond the largest finite number it is infinite. -/
def ofRatio (negative : Bool) (num den : Nat) : Single :=
  if room : significant 24 num den < ceiling then
    .finite negative (significant 24 num den) ⟨room, significant_fits (by decide) num den⟩
  else
    .infinite negative

def zero : Single := ofRatio false 0 1

instance : Inhabited Single := ⟨zero⟩

def ofNat (n : Nat) : Single := ofRatio false (n * Nat.pow 2 149) 1

instance {n : Nat} : OfNat Single n := ⟨ofNat n⟩

def signed (negative : Bool) (units : Nat) : Int :=
  if negative then -(units : Int) else units

/-- Place on the number line in units, the infinities standing just outside the finite numbers. -/
def place? : Single → Option Int
  | .notANumber => none
  | .infinite negative => some (signed negative ceiling)
  | .finite negative units _ => some (signed negative units)

def isFinite : Single → Bool
  | .finite _ _ _ => true
  | _ => false

/-- A comparison with not-a-number never holds. -/
def compareBy (holds : Int → Int → Bool) (a b : Single) : Bool :=
  match a.place?, b.place? with
  | some a, some b => holds a b
  | _, _ => false

def less (a b : Single) : Bool := compareBy (· < ·) a b

def atMost (a b : Single) : Bool := compareBy (· ≤ ·) a b

def same (a b : Single) : Bool := compareBy (· == ·) a b

def neg : Single → Single
  | .notANumber => .notANumber
  | .infinite negative => .infinite (!negative)
  | .finite negative units representable => .finite (!negative) units representable

instance : Neg Single := ⟨neg⟩

def abs : Single → Single
  | .notANumber => .notANumber
  | .infinite _ => .infinite false
  | .finite _ units representable => .finite false units representable

/-- A sum that cancels exactly is `0`, and `-0` only when both terms are negative. -/
def add : Single → Single → Single
  | .notANumber, _ | _, .notANumber => .notANumber
  | .infinite a, .infinite b => if a = b then .infinite a else .notANumber
  | .infinite a, .finite _ _ _ => .infinite a
  | .finite _ _ _, .infinite b => .infinite b
  | .finite a x _, .finite b y _ =>
    let total := signed a x + signed b y
    if total = 0 then ofRatio (a && b) 0 1 else ofRatio (total < 0) total.natAbs 1

instance : Add Single := ⟨add⟩

instance : Sub Single := ⟨fun a b => a + -b⟩

def mul : Single → Single → Single
  | .notANumber, _ | _, .notANumber => .notANumber
  | .infinite a, .infinite b => .infinite (a ^^ b)
  | .infinite a, .finite b y _ => if y = 0 then .notANumber else .infinite (a ^^ b)
  | .finite a x _, .infinite b => if x = 0 then .notANumber else .infinite (a ^^ b)
  | .finite a x _, .finite b y _ => ofRatio (a ^^ b) (x * y) (Nat.pow 2 149)

instance : Mul Single := ⟨mul⟩

def div : Single → Single → Single
  | .notANumber, _ | _, .notANumber => .notANumber
  | .infinite _, .infinite _ => .notANumber
  | .infinite a, .finite b _ _ => .infinite (a ^^ b)
  | .finite a _ _, .infinite b => ofRatio (a ^^ b) 0 1
  | .finite a x _, .finite b y _ =>
    if y = 0 then (if x = 0 then .notANumber else .infinite (a ^^ b))
    else ofRatio (a ^^ b) (x * Nat.pow 2 149) y

instance : Div Single := ⟨div⟩

/-- What is left of the first number after taking away the second a whole number of times, with the
sign of the first. -/
def remainder : Single → Single → Single
  | .notANumber, _ | _, .notANumber | .infinite _, _ => .notANumber
  | .finite a x r, .infinite _ => .finite a x r
  | .finite a x _, .finite _ y _ => if y = 0 then .notANumber else ofRatio a (x % y) 1

/-- The remainder moved up by one divisor when it is negative. The move rounds. -/
def wrap (a b : Single) : Single :=
  let rest := remainder a b
  if rest.less 0 then rest + b.abs else rest

def toBits : Single → Nat
  | .notANumber => 0x7fc00000
  | .infinite negative => (if negative then Nat.pow 2 31 else 0) + 0x7f800000
  | .finite negative units _ =>
    let low := surplus 24 units
    let lead := units / Nat.pow 2 low
    (if negative then Nat.pow 2 31 else 0) + (if lead < Nat.pow 2 23 then lead else low * Nat.pow 2 23 + lead)

def ofBits (bits : Nat) : Single :=
  let negative := bits / Nat.pow 2 31 % 2 == 1
  let exponent := bits / Nat.pow 2 23 % 256
  let fraction := bits % Nat.pow 2 23
  if exponent = 255 then (if fraction = 0 then .infinite negative else .notANumber)
  else if exponent = 0 then ofRatio negative fraction 1
  else ofRatio negative ((Nat.pow 2 23 + fraction) * Nat.pow 2 (exponent - 1)) 1

end Single

end ReactiveTree
