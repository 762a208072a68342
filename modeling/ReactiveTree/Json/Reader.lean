import ReactiveTree.Json

/-!
Reading JSON text. Every reader takes the text from where it starts and gives back what is left.
Blank characters are space, tab, line feed and carriage return.
-/

namespace ReactiveTree.Json.Reader

def isBlank (c : Char) : Bool :=
  c = ' ' || c = '\t' || c = '\n' || c = '\r'

def skipBlank (text : List Char) : List Char :=
  text.dropWhile isBlank

def stringUnits : List Char → Option (List Nat × List Char)
  | [] => none
  | '"' :: rest => some ([], rest)
  | '\\' :: 'u' :: a :: b :: c :: d :: rest => do
    let unit ← Text.natural? 16 [a, b, c, d]
    let (units, rest) ← stringUnits rest
    some (unit :: units, rest)
  | '\\' :: mark :: rest => do
    let c ← simple? mark
    let (units, rest) ← stringUnits rest
    some (c.toNat :: units, rest)
  | c :: rest =>
    if c.toNat < 0x20 ∨ c = '\\' then none
    else (stringUnits rest).map fun (units, rest) => (c.toNat :: units, rest)
where
  simple? : Char → Option Char
    | '"' => some '"'
    | '\\' => some '\\'
    | '/' => some '/'
    | 'b' => some '\x08'
    | 'f' => some '\x0c'
    | 'n' => some '\n'
    | 'r' => some '\r'
    | 't' => some '\t'
    | _ => none

def isHigh (unit : Nat) : Bool := 0xD800 ≤ unit && unit < 0xDC00
def isLow (unit : Nat) : Bool := 0xDC00 ≤ unit && unit < 0xE000

def join? : List Nat → Option (List Char)
  | [] => some []
  | [unit] => if isHigh unit || isLow unit then none else some [Char.ofNat unit]
  | unit :: next :: rest =>
    if isHigh unit then
      if isLow next then
        (join? rest).map (Char.ofNat (0x10000 + (unit - 0xD800) * 0x400 + (next - 0xDC00)) :: ·)
      else none
    else if isLow unit then none
    else (join? (next :: rest)).map (Char.ofNat unit :: ·)

def string? (text : List Char) : Option (Option String × List Char) :=
  (stringUnits text).map fun (units, rest) => ((join? units).map String.ofList, rest)

def digits? (text : List Char) : Option (List Char × List Char) :=
  let run := text.takeWhile Text.isDecimalDigit
  if run.isEmpty then none else some (run, text.dropWhile Text.isDecimalDigit)

/-- Goes on with a number by more digits as long as it fits in 64 bits; the other digits are left. -/
def extend : Nat → List Char → Nat × List Char
  | value, [] => (value, [])
  | value, c :: rest =>
    let next := value * 10 + Text.digitsValue 10 [c]
    if next < Nat.pow 2 64 then extend next rest else (value, c :: rest)

/-- A numeral has no superfluous leading zero. Digits that do not fit are left away before the point
and behind it, each time from the first such digit on. -/
def number? (text : List Char) : Option (Numeral × List Char) := do
  let (negative, text) := match text with
    | '-' :: rest => (true, rest)
    | rest => (false, rest)
  let (whole, text) ← digits? text
  if whole.head? = some '0' && whole.length ≠ 1 then none
  else
    let (fraction, text) ← match text with
      | '.' :: rest => digits? rest
      | rest => some ([], rest)
    let (exponent, text) ← exponent? text
    let (digits, large) := extend 0 whole
    let (digits, small) := extend digits fraction
    let places : Int := fraction.length - small.length
    let plain := fraction.isEmpty && exponent.isNone && large.isEmpty
    some (.ofDecimal plain ⟨negative, digits, exponent.getD 0 + large.length - places⟩, text)
where
  exponent? : List Char → Option (Option Int × List Char)
    | mark :: rest =>
      if mark = 'e' ∨ mark = 'E' then do
        let (negative, rest) := Text.sign rest
        let (digits, rest) ← digits? rest
        let size : Int := Text.digitsValue 10 digits
        some (some (if negative then -size else size), rest)
      else some (none, mark :: rest)
    | [] => some (none, [])

def word? : List Char → List Char → Option (List Char)
  | [], rest => some rest
  | c :: word, d :: rest => if c = d then word? word rest else none
  | _ :: _, [] => none

def items? (value? : List Char → Option (Json × List Char)) :
    Nat → List Char → Option (List Json × List Char)
  | 0, _ => none
  | fuel + 1, text => do
    let (item, rest) ← value? text
    match skipBlank rest with
    | ']' :: rest => some ([item], rest)
    | ',' :: rest =>
      let (items, rest) ← items? value? fuel rest
      some (item :: items, rest)
    | _ => none

def fields? (value? : List Char → Option (Json × List Char)) :
    Nat → List Char → Option (List (Option String × Json) × List Char)
  | 0, _ => none
  | fuel + 1, text =>
    match skipBlank text with
    | '"' :: rest => do
      let (name, rest) ← string? rest
      match skipBlank rest with
      | ':' :: rest =>
        let (value, rest) ← value? rest
        match skipBlank rest with
        | '}' :: rest => some ([(name, value)], rest)
        | ',' :: rest =>
          let (fields, rest) ← fields? value? fuel rest
          some ((name, value) :: fields, rest)
        | _ => none
      | _ => none
    | _ => none

/-- A value. Every level takes at least one character, so a text as long as `fuel` has enough. -/
def value? : Nat → List Char → Option (Json × List Char)
  | 0, _ => none
  | fuel + 1, text =>
    match skipBlank text with
    | 'n' :: rest => (word? "ull".toList rest).map (.null, ·)
    | 't' :: rest => (word? "rue".toList rest).map (.bool true, ·)
    | 'f' :: rest => (word? "alse".toList rest).map (.bool false, ·)
    | '"' :: rest => (string? rest).map fun (text, rest) => (.string text, rest)
    | '[' :: rest =>
      match skipBlank rest with
      | ']' :: rest => some (.array [], rest)
      | rest => (items? (value? fuel) fuel rest).map fun (items, rest) => (.array items, rest)
    | '\x7b' :: rest =>
      match skipBlank rest with
      | '\x7d' :: rest => some (.object [], rest)
      | rest => (fields? (value? fuel) fuel rest).map fun (fields, rest) => (.object fields, rest)
    | text => (number? text).map fun (numeral, rest) => (.number numeral, rest)

end Reader

open Reader in
def parse? (document : String) : Option Json :=
  match value? (document.length + 1) document.toList with
  | some (json, rest) => if (skipBlank rest).isEmpty then some json else none
  | none => none

end ReactiveTree.Json
