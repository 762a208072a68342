/-!
Numbers written with digits, in bases up to sixteen.
-/

namespace ReactiveTree.Text

/-- Value of one digit; letters count from ten in either case. -/
def digit? (base : Nat) (c : Char) : Option Nat :=
  let value :=
    if '0' ≤ c ∧ c ≤ '9' then some (c.toNat - '0'.toNat)
    else if 'a' ≤ c ∧ c ≤ 'f' then some (c.toNat - 'a'.toNat + 10)
    else if 'A' ≤ c ∧ c ≤ 'F' then some (c.toNat - 'A'.toNat + 10)
    else none
  value.filter (· < base)

def isDigitOf (base : Nat) (c : Char) : Bool :=
  (digit? base c).isSome

def isDecimalDigit (c : Char) : Bool := isDigitOf 10 c

/-- Positional value of a run of digits; a character that is no digit counts as zero. -/
def digitsValue (base : Nat) (text : List Char) : Nat :=
  text.foldl (fun value c => value * base + (digit? base c).getD 0) 0

def natural? (base : Nat) (text : List Char) : Option Nat :=
  if text.isEmpty then none
  else if text.all (isDigitOf base) then some (digitsValue base text)
  else none

/-- Splits an optional sign off; `true` stands for minus. -/
def sign : List Char → Bool × List Char
  | '-' :: rest => (true, rest)
  | '+' :: rest => (false, rest)
  | rest => (false, rest)

def integer? (text : List Char) : Option Int :=
  let (negative, rest) := sign text
  (natural? 10 rest).map fun n => if negative then -(n : Int) else n

def naturalBelow? (limit : Nat) (text : List Char) : Option Nat :=
  let rest := match text with
    | '+' :: rest => rest
    | rest => rest
  (natural? 10 rest).filter (· < limit)

def decimal (n : Nat) : List Char :=
  Nat.toDigits 10 n

end ReactiveTree.Text
