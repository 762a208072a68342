import ReactiveTree.Number.Decimal

/-!
RON values as a document carries them, read with the extensions that it enables. Numbers stay text,
because what they mean depends on the type that is read.
-/

namespace ReactiveTree

inductive Ron where
  /-- The empty pair of parentheses. -/
  | unit
  | absent
  | present (item : Ron)
  /-- A name alone, such as a case without content. -/
  | word (name : String)
  | number (token : List Char)
  | string (text : String)
  /-- A character, a byte or a string of bytes. -/
  | symbol
  | list (items : List Ron)
  | map (entries : List (Ron × Ron))
  | tuple (name : Option String) (items : List Ron)
  | record (name : Option String) (fields : List (String × Ron))
  deriving Repr

namespace Ron

structure Extensions where
  implicitSome : Bool := false
  unwrapCases : Bool := false
  namedRecords : Bool := false
  deriving DecidableEq, Repr

namespace Extensions

/-- The extensions with one more enabled. Types that only wrap another type do not occur, so the
extension that is about them changes nothing. -/
def enable? (name : String) (extensions : Extensions) : Option Extensions :=
  match name with
  | "implicit_some" => some { extensions with implicitSome := true }
  | "unwrap_variant_newtypes" => some { extensions with unwrapCases := true }
  | "explicit_struct_names" => some { extensions with namedRecords := true }
  | "unwrap_newtypes" => some extensions
  | _ => none

end Extensions

namespace Number

def isDigitPart (c : Char) : Bool :=
  Text.isDigitOf 16 c || c = '_'

def isDecimalPart (c : Char) : Bool :=
  Text.isDecimalDigit c || c = 'e' || c = 'E' || c = '.' || c = '+' || c = '-' || c = '_'

def base : List Char → Nat × List Char
  | '0' :: 'b' :: rest => (2, rest)
  | '0' :: 'o' :: rest => (8, rest)
  | '0' :: 'x' :: rest => (16, rest)
  | rest => (10, rest)

structure Whole where
  negative : Bool
  size : Nat
  suffix : String
  deriving DecidableEq, Repr

/-- Underscores may stand anywhere but in front. A suffix has to follow hexadecimal digits that run
on from the sign, so there is none behind the marks `0o` and `0x`. -/
def whole? (text : List Char) : Option Whole :=
  let (negative, rest) := Text.sign text
  let (base, rest) := base rest
  let digits := rest.takeWhile isDigitPart
  let suffix := String.ofList (rest.dropWhile isDigitPart)
  if digits.head? = some '_' ∨ (suffix ≠ "" ∧ (base = 8 ∨ base = 16)) then none
  else (Text.natural? base (digits.filter (· ≠ '_'))).map (⟨negative, ·, suffix⟩)

/-- The first size that is too large for a type, and the largest one that may follow a minus sign.
A number without a suffix has 64 bits. -/
def limits? : String → Option (Nat × Nat)
  | "" => some (Nat.pow 2 64, Nat.pow 2 63)
  | "i8" => some (Nat.pow 2 7, Nat.pow 2 7)
  | "i16" => some (Nat.pow 2 15, Nat.pow 2 15)
  | "i32" => some (Nat.pow 2 31, Nat.pow 2 31)
  | "i64" => some (Nat.pow 2 63, Nat.pow 2 63)
  | "u8" => some (Nat.pow 2 8, 0)
  | "u16" => some (Nat.pow 2 16, 0)
  | "u32" => some (Nat.pow 2 32, 0)
  | "u64" => some (Nat.pow 2 64, 0)
  | _ => none

def Whole.fits (whole : Whole) (type : String) : Bool :=
  match limits? type with
  | some (limit, least) => if whole.negative then whole.size ≤ least else whole.size < limit
  | none => false

/-- A natural number of 64 bits. A minus sign may stand before zero only. -/
def natural? (text : List Char) : Option Nat :=
  match whole? text with
  | some whole =>
    if (whole.suffix = "" ∨ whole.suffix = "u64") ∧ whole.fits "u64" then some whole.size else none
  | none => none

/-- Drops underscores. One may stand behind a digit or the mark of the exponent, even if more of them
or a sign come between, and not behind a point. -/
def withoutUnderscores? : Bool → List Char → Option (List Char)
  | _, [] => some []
  | allowed, c :: rest =>
    if c = '_' then if allowed then withoutUnderscores? true rest else none
    else
      let allowed := c ≠ '.' ∧ (allowed ∨ ¬(c = '+' ∨ c = '-'))
      (withoutUnderscores? allowed rest).map (c :: ·)

def single? (suffixes : List String) (text : List Char) : Option Single :=
  let suffix := String.ofList (text.dropWhile isDecimalPart)
  if suffix = "" ∨ suffix ∈ suffixes then
    (withoutUnderscores? false (text.takeWhile isDecimalPart)).bind Single.parse?
  else none

def special? (suffixes : List String) (text : String) : Option Single :=
  let names : List (String × Single) :=
    [("inf", .infinite false), ("+inf", .infinite false), ("-inf", .infinite true),
      ("NaN", .notANumber), ("+NaN", .notANumber), ("-NaN", .notANumber)]
  (names.find? fun (name, _) => text = name || suffixes.any fun suffix => text = name ++ suffix).map
    (·.2)

/-- The text is a number of any type. A whole number that is too large for 64 bits counts if it is a
decimal numeral. -/
def isNumber (text : List Char) : Bool :=
  let floats := ["f32", "f64"]
  let isWhole := match whole? text with
    | some whole => whole.fits whole.suffix
    | none => false
  isWhole || (single? floats text).isSome || (special? floats (String.ofList text)).isSome

end Number

def natural? : Ron → Option Nat
  | number token => Number.natural? token
  | _ => none

def single? : Ron → Option Single
  | number token => (Number.single? ["f32"] token).or (Number.special? ["f32"] (String.ofList token))
  | _ => none

def string? : Ron → Option String
  | string text => some text
  | _ => none

end Ron

end ReactiveTree
