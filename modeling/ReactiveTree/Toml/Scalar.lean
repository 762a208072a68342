import ReactiveTree.Number.Double

/-!
Numbers, truth values, dates and times of TOML. Each is one word without blanks, but for a date and
a time that one blank divides.
-/

namespace ReactiveTree.Toml

/-- Digits of a base; an underscore may stand between two of them. -/
def digits? (base : Nat) (text : List Char) : Option Nat :=
  let parts := Text.splitOn '_' text
  if parts.all fun part => !part.isEmpty && part.all (Text.isDigitOf base) then
    some (Text.digitsValue base (text.filter (· ≠ '_')))
  else none

def decimal? (text : List Char) : Option Nat :=
  if text.head? = some '0' && text.length ≠ 1 then none else digits? 10 text

def integer? (text : List Char) : Option Int :=
  match text with
  | '0' :: 'x' :: rest => (digits? 16 rest).map Int.ofNat
  | '0' :: 'o' :: rest => (digits? 8 rest).map Int.ofNat
  | '0' :: 'b' :: rest => (digits? 2 rest).map Int.ofNat
  | text =>
    let (negative, rest) := Text.sign text
    (decimal? rest).map fun n => if negative then -(n : Int) else n

/-- A number with a point, an exponent or both, or one of the names. It must not be too large for a
double. -/
def isReal (text : List Char) : Bool :=
  let (negative, rest) := Text.sign text
  if rest = ['i', 'n', 'f'] || rest = ['n', 'a', 'n'] then true
  else
    let isMark (c : Char) : Bool := c = 'e' || c = 'E'
    let mantissa := rest.takeWhile fun c => !isMark c
    let exponent := (rest.dropWhile fun c => !isMark c).drop 1
    let marked := rest.any isMark
    let whole := mantissa.takeWhile (· ≠ '.')
    let fraction := (mantissa.dropWhile (· ≠ '.')).drop 1
    let pointed := mantissa.contains '.'
    let written := (marked || pointed) && (decimal? whole).isSome &&
      (!pointed || (digits? 10 fraction).isSome) &&
      (!marked || (digits? 10 (Text.sign exponent).2).isSome)
    match Decimal.unsigned? negative (rest.filter (· ≠ '_')) with
    | some d => written && Double.fits d
    | none => false

def fixed? (count : Nat) (text : List Char) : Option (Nat × List Char) :=
  (Text.natural? 10 (text.take count)).bind fun n =>
    if (text.take count).length = count then some (n, text.drop count) else none

def daysIn (year month : Nat) : Nat :=
  if month = 2 then
    if year % 4 = 0 ∧ (year % 100 ≠ 0 ∨ year % 400 = 0) then 29 else 28
  else if month = 4 ∨ month = 6 ∨ month = 9 ∨ month = 11 then 30
  else 31

def behindDate? (text : List Char) : Option (List Char) := do
  let (year, rest) ← fixed? 4 text
  match rest with
  | '-' :: rest =>
    let (month, rest) ← fixed? 2 rest
    match rest with
    | '-' :: rest =>
      let (day, rest) ← fixed? 2 rest
      if 1 ≤ month ∧ month ≤ 12 ∧ 1 ≤ day ∧ day ≤ daysIn year month then some rest else none
    | _ => none
  | _ => none

def behindTime? (text : List Char) : Option (List Char) := do
  let (hour, rest) ← fixed? 2 text
  match rest with
  | ':' :: rest =>
    let (minute, rest) ← fixed? 2 rest
    if 23 < hour ∨ 59 < minute then none
    else match rest with
      | ':' :: rest =>
        let (second, rest) ← fixed? 2 rest
        if 60 < second then none
        else match rest with
          | '.' :: c :: rest =>
            if Text.isDecimalDigit c then some (rest.dropWhile Text.isDecimalDigit) else none
          | rest => some rest
      | rest => some rest
  | _ => none

def isOffset : List Char → Bool
  | [] | ['Z'] | ['z'] => true
  | mark :: rest =>
    (mark = '+' || mark = '-') &&
      match fixed? 2 rest with
      | some (hour, ':' :: rest) =>
        match fixed? 2 rest with
        | some (minute, []) => hour ≤ 23 && minute ≤ 59
        | _ => false
      | _ => false

def isMoment (text : List Char) : Bool :=
  match behindDate? text with
  | some [] => true
  | some (mark :: rest) =>
    (mark = 'T' || mark = 't' || mark = ' ') &&
      match behindTime? rest with
      | some rest => isOffset rest
      | none => false
  | none => behindTime? text = some []

end ReactiveTree.Toml
