import ReactiveTree.Number.Double

/-!
JSON values as a document carries them. A text is missing where its escapes stand for half of a
surrogate pair: such a text may be skipped but not used.
-/

namespace ReactiveTree

/-- Whole numbers are kept as they are while they fit in 64 bits. -/
inductive Numeral where
  | natural (n : Nat)
  | negative (n : Nat)
  | real (x : Double)
  | outOfRange
  deriving DecidableEq, Repr

inductive Json where
  | null
  | bool (b : Bool)
  | number (numeral : Numeral)
  | string (text : Option String)
  | array (items : List Json)
  | object (fields : List (Option String × Json))
  deriving Repr

namespace Numeral

def natural? : Numeral → Option Nat
  | natural n => some n
  | _ => none

def single? : Numeral → Option Single
  | natural n => some (Double.toSingle ⟨false, Double.ofWhole n⟩)
  | negative n => some (Double.toSingle ⟨true, Double.ofWhole n⟩)
  | real x => some x.toSingle
  | outOfRange => none

/-- The number that a numeral writes: `whole` tells that it has neither point nor exponent, nor more
digits than fit in 64 bits. -/
def ofDecimal (whole : Bool) (d : Decimal) : Numeral :=
  if whole && !d.negative then natural d.digits
  else if whole && d.digits ≠ 0 && d.digits ≤ Nat.pow 2 63 then negative d.digits
  else match Double.ofDecimal? d with
    | some x => real x
    | none => outOfRange

end Numeral

namespace Json

def ofString (text : String) : Json := string (some text)

def natural? : Json → Option Nat
  | number numeral => numeral.natural?
  | _ => none

def single? : Json → Option Single
  | number numeral => numeral.single?
  | _ => none

def string? : Json → Option String
  | string text => text
  | _ => none

def bool? : Json → Option Bool
  | bool b => some b
  | _ => none

def items? : Json → Option (List Json)
  | array items => some items
  | _ => none

def valuesAt (fields : List (Option String × Json)) (name : String) : List Json :=
  (fields.filter (·.1 = some name)).map (·.2)

def field? (name : String) : Json → Option Json
  | object fields => (valuesAt fields name).head?
  | _ => none

def optional? {α : Type} (read : Json → Option α) : Json → Option (Option α)
  | null => some none
  | json => (read json).map some

def list? {α : Type} (read : Json → Option α) : Json → Option (List α)
  | array items => items.mapM read
  | _ => none

end Json

end ReactiveTree
