import ReactiveTree.Ron
import ReactiveTree.Text.Identifier

/-!
Reading RON text. Every reader takes the text from where it starts and gives back what is left.
The first argument of a recursive reader bounds its steps; every step takes at least one character.
-/

namespace ReactiveTree.Ron.Reader

def isBlank (c : Char) : Bool :=
  c = ' ' || ('\t' ≤ c && c ≤ '\r') || c.toNat ∈ [0x85, 0x200E, 0x200F, 0x2028, 0x2029]

/-- What is behind a block comment; such comments nest. -/
def behindComment : Nat → List Char → Option (List Char)
  | _, [] => none
  | level, '/' :: '*' :: rest => behindComment (level + 1) rest
  | level, '*' :: '/' :: rest => if level = 0 then some rest else behindComment (level - 1) rest
  | level, _ :: rest => behindComment level rest

def skip : Nat → List Char → Option (List Char)
  | 0, text => some text
  | steps + 1, text =>
    match text.dropWhile isBlank with
    | '/' :: '/' :: rest => skip steps (rest.dropWhile (· ≠ '\n'))
    | '/' :: '*' :: rest => do
      let rest ← behindComment 0 rest
      skip steps rest
    | '/' :: _ => none
    | rest => some rest

def isRawText : List Char → Bool
  | '"' :: _ => true
  | '#' :: '"' :: _ => true
  | '#' :: '#' :: _ => true
  | _ => false

def isBytes : List Char → Bool
  | '"' :: _ | '\'' :: _ | 'r' :: '"' :: _ | 'r' :: '#' :: _ => true
  | _ => false

def isRawRest (c : Char) : Bool :=
  Text.isIdentifierRest c || c = '.' || c = '+' || c = '-'

/-- An identifier, plain or marked by `r#`. A plain one does not run on into characters that only a
marked one may hold. -/
def identifier? : List Char → Option (String × List Char)
  | [] => none
  | c :: rest =>
    if !Text.isIdentifierStart c then none
    else if (c = 'b' && isBytes rest) || (c = 'r' && isRawText rest) then none
    else match c, rest with
      | 'r', '#' :: d :: rest =>
        if isRawRest d then
          some (String.ofList ((d :: rest).takeWhile isRawRest), (d :: rest).dropWhile isRawRest)
        else none
      | c, rest =>
        let behind := rest.dropWhile Text.isIdentifierRest
        if (behind.head?.map isRawRest).getD false then none
        else some (String.ofList (c :: rest.takeWhile Text.isIdentifierRest), behind)

def behindWord? (word : String) (text : List Char) : Option (List Char) :=
  let rest := text.drop word.length
  if word.toList.isPrefixOf text && !(rest.head?.map Text.isIdentifierRest).getD false then some rest
  else none

def constants : List (String × Ron) :=
  [("true", .word "true"), ("false", .word "false"), ("None", .absent)] ++
    ["inf", "inff32", "inff64", "NaN", "NaNf32", "NaNf64"].map fun name => (name, .number name.toList)

def constant? (text : List Char) : Option (Ron × List Char) :=
  constants.findSome? fun (name, value) => (behindWord? name text).map (value, ·)

inductive Literal where
  | text
  | character
  | bytes
  deriving DecidableEq, Repr

def encoded? (bytes : List Nat) : Option Char :=
  match String.fromUTF8? ⟨(bytes.map UInt8.ofNat).toArray⟩ with
  | some text =>
    match text.toList with
    | [c] => some c
    | _ => none
  | none => none

def byteEscapes : Nat → List Nat → List Char → Option (Char × List Char)
  | 0, _, _ => none
  | more + 1, bytes, a :: b :: rest => do
    let byte ← Text.natural? 16 [a, b]
    let bytes := bytes ++ [byte]
    match encoded? bytes with
    | some c => some (c, rest)
    | none =>
      match rest with
      | '\\' :: 'x' :: rest => byteEscapes more bytes rest
      | _ => none
  | _ + 1, _, _ => none

/-- A byte behind `\x`. Bytes stand alone; a character has to be one byte; in a text up to four of
them make a character. -/
def byteEscape? : Literal → List Char → Option (Char × List Char)
  | .bytes, a :: b :: rest => (Text.natural? 16 [a, b]).map (Char.ofNat ·, rest)
  | .bytes, _ => none
  | .character, text => byteEscapes 1 [] text
  | .text, text => byteEscapes 4 [] text

def escape? (literal : Literal) : List Char → Option (Char × List Char)
  | '\'' :: rest => some ('\'', rest)
  | '"' :: rest => some ('"', rest)
  | '\\' :: rest => some ('\\', rest)
  | 'n' :: rest => some ('\n', rest)
  | 'r' :: rest => some ('\r', rest)
  | 't' :: rest => some ('\t', rest)
  | '0' :: rest => some ('\x00', rest)
  | 'x' :: rest => byteEscape? literal rest
  | 'u' :: '\x7b' :: rest =>
    let digits := rest.takeWhile (· ≠ '\x7d')
    match rest.dropWhile (· ≠ '\x7d') with
    | _ :: rest =>
      if 6 < digits.length then none
      else match Text.natural? 16 digits with
        | some point => if point.isValidChar then some (Char.ofNat point, rest) else none
        | none => none
    | [] => none
  | _ => none

def quoted? (literal : Literal) : Nat → List Char → Option (List Char × List Char)
  | 0, _ => none
  | steps + 1, text =>
    match text with
    | '"' :: rest => some ([], rest)
    | '\\' :: rest => do
      let (c, rest) ← escape? literal rest
      let (cs, rest) ← quoted? literal steps rest
      some (c :: cs, rest)
    | c :: rest => do
      let (cs, rest) ← quoted? literal steps rest
      some (c :: cs, rest)
    | [] => none

def upTo? (ending : List Char) : List Char → Option (List Char × List Char)
  | [] => none
  | c :: rest =>
    if ending.isPrefixOf (c :: rest) then some ([], (c :: rest).drop ending.length)
    else (upTo? ending rest).map fun (before, behind) => (c :: before, behind)

/-- A raw text behind `r`: no escapes, and as many number signs behind it as before. -/
def raw? (text : List Char) : Option (List Char × List Char) :=
  let signs := text.takeWhile (· = '#')
  match text.dropWhile (· = '#') with
  | '"' :: rest => upTo? ('"' :: signs) rest
  | _ => none

def closingQuote? : List Char → Option (List Char)
  | '\'' :: rest => some rest
  | _ => none

def character? : List Char → Option (List Char)
  | '\\' :: rest => do
    let (_, rest) ← escape? .character rest
    closingQuote? rest
  | _ :: rest => closingQuote? rest
  | [] => none

/-- A byte behind its opening quote; it cannot be given as a code point. -/
def byte? : List Char → Option (List Char)
  | '\\' :: 'u' :: _ => none
  | '\\' :: rest => do
    let (_, rest) ← escape? .bytes rest
    closingQuote? rest
  | c :: rest => if c.toNat < 0x80 then closingQuote? rest else none
  | [] => none

def isNumberPart (c : Char) : Bool :=
  c.isAlphanum || c = '_' || c = '.' || c = '+' || c = '-'

def isNumberStart (c : Char) : Bool :=
  c.isDigit || c = '.' || c = '+' || c = '-'

abbrev ValueReader := List Char → Option (Ron × List Char)

def comma? (steps : Nat) (text : List Char) : Option (Bool × List Char) := do
  match ← skip steps text with
  | ',' :: rest =>
    let rest ← skip steps rest
    some (true, rest)
  | rest => some (false, rest)

def items? (value? : ValueReader) (close : Char) :
    Nat → List Char → Option (List Ron × List Char)
  | 0, _ => none
  | steps + 1, text => do
    if text.head? = some close then some ([], text.drop 1)
    else
      let (item, rest) ← value? text
      match ← comma? steps rest with
      | (true, rest) =>
        let (items, rest) ← items? value? close steps rest
        some (item :: items, rest)
      | (false, rest) => if rest.head? = some close then some ([item], rest.drop 1) else none

def behindColon? (value? : ValueReader) (steps : Nat) (text : List Char) :
    Option (Ron × List Char) := do
  match ← skip steps text with
  | ':' :: rest =>
    let rest ← skip steps rest
    value? rest
  | _ => none

def fields? (value? : ValueReader) :
    Nat → List Char → Option (List (String × Ron) × List Char)
  | 0, _ => none
  | _ + 1, ')' :: rest => some ([], rest)
  | steps + 1, text => do
    let (name, rest) ← identifier? text
    let (value, rest) ← behindColon? value? steps rest
    match ← comma? steps rest with
    | (true, rest) =>
      let (fields, rest) ← fields? value? steps rest
      some ((name, value) :: fields, rest)
    | (false, ')' :: rest) => some ([(name, value)], rest)
    | _ => none

def entries? (value? : ValueReader) :
    Nat → List Char → Option (List (Ron × Ron) × List Char)
  | 0, _ => none
  | _ + 1, '\x7d' :: rest => some ([], rest)
  | steps + 1, text => do
    let (key, rest) ← value? text
    let (value, rest) ← behindColon? value? steps rest
    match ← comma? steps rest with
    | (true, rest) =>
      let (entries, rest) ← entries? value? steps rest
      some ((key, value) :: entries, rest)
    | (false, '\x7d' :: rest) => some ([(key, value)], rest)
    | _ => none

/-- Fields or items behind an opening parenthesis: fields if a name with a colon comes first. -/
def compound? (value? : ValueReader) (steps : Nat) (name : Option String) (text : List Char) :
    Option (Ron × List Char) := do
  let text ← skip steps text
  let isRecord := match identifier? text with
    | some (_, rest) =>
      match skip steps rest with
      | some (':' :: _) => true
      | _ => false
    | none => false
  if isRecord then
    let (fields, rest) ← fields? value? steps text
    some (.record name fields, rest)
  else
    let (items, rest) ← items? value? ')' steps text
    some (.tuple name items, rest)

/-- What an optional value holds, behind `Some`: one item in parentheses. If cases are unwrapped it
may leave out the parentheses of its own, and if `Some` is implicit it may leave out those of
`Some`. -/
def present? (extensions : Extensions) (value? : ValueReader) (steps : Nat) (text : List Char) :
    Option (Ron × List Char) := do
  match ← skip steps text with
  | '(' :: rest =>
    match ← compound? value? steps none rest with
    | (.tuple none [item], rest) => some (.present item, rest)
    | (content, rest) =>
      if !extensions.unwrapCases then none
      else match content with
        | .tuple none [] => some (.present .unit, rest)
        | content => some (.present content, rest)
  | rest =>
    if extensions.implicitSome then (value? rest).map fun (item, rest) => (.present item, rest)
    else none

def nameless? (value? : ValueReader) (steps : Nat) (text : List Char) : Option (Ron × List Char) :=
  match text with
  | '(' :: ')' :: rest => some (.unit, rest)
  | '(' :: rest => compound? value? steps none rest
  | '[' :: rest => do
    let rest ← skip steps rest
    let (items, rest) ← items? value? ']' steps rest
    some (.list items, rest)
  | '\x7b' :: rest => do
    let rest ← skip steps rest
    let (entries, rest) ← entries? value? steps rest
    some (.map entries, rest)
  | '"' :: rest => (quoted? .text steps rest).map fun (cs, rest) => (.string (String.ofList cs), rest)
  | 'r' :: rest => (raw? rest).map fun (cs, rest) => (.string (String.ofList cs), rest)
  | '\'' :: rest => (character? rest).map (.symbol, ·)
  | 'b' :: '\'' :: rest => (byte? rest).map (.symbol, ·)
  | 'b' :: '"' :: rest => (quoted? .bytes steps rest).map fun (_, rest) => (.symbol, rest)
  | 'b' :: 'r' :: rest => (raw? rest).map fun (_, rest) => (.symbol, rest)
  | c :: rest =>
    if isNumberStart c then
      some (.number (c :: rest.takeWhile isNumberPart), rest.dropWhile isNumberPart)
    else none
  | [] => none

def value? (extensions : Extensions) : Nat → List Char → Option (Ron × List Char)
  | 0, _ => none
  | steps + 1, text =>
    match behindWord? "Some" text, constant? text, identifier? text with
    | some rest, _, _ => present? extensions (value? extensions steps) steps rest
    | none, some found, _ => some found
    | none, none, some (name, rest) => do
      match ← skip steps rest with
      | '(' :: rest => compound? (value? extensions steps) steps (some name) rest
      | rest => some (.word name, rest)
    | none, none, none => nameless? (value? extensions steps) steps text

def expect? (steps : Nat) : List String → List Char → Option (List Char)
  | [], text => some text
  | next :: words, text =>
    if next.toList.isPrefixOf text then do
      let rest ← skip steps (text.drop next.length)
      expect? steps words rest
    else none

def extensionNames? : Nat → Extensions → List Char → Option (Extensions × List Char)
  | 0, _, _ => none
  | steps + 1, extensions, text => do
    let (name, rest) ← identifier? text
    let extensions ← extensions.enable? name
    match ← comma? steps rest with
    | (true, rest) =>
      if (rest.head?.map Text.isIdentifierStart).getD false then
        extensionNames? steps extensions rest
      else some (extensions, rest)
    | (false, rest) => some (extensions, rest)

def attributes? : Nat → Extensions → List Char → Option (Extensions × List Char)
  | 0, _, _ => none
  | steps + 1, extensions, text =>
    if text.head? = some '#' then do
      let rest ← expect? steps ["#", "!", "[", "enable", "("] text
      let (extensions, rest) ← extensionNames? steps extensions rest
      let rest ← expect? steps [")", "]"] rest
      attributes? steps extensions rest
    else some (extensions, text)

end Reader

open Reader in
def parse? (document : String) : Option (Extensions × Ron) := do
  let steps := document.length + 1
  let text ← skip steps document.toList
  let (extensions, text) ← attributes? steps {} text
  let (value, rest) ← value? extensions steps text
  let rest ← skip steps rest
  if rest.isEmpty then some (extensions, value) else none

end ReactiveTree.Ron
