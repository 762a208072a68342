import ReactiveTree.Toml
import ReactiveTree.Toml.Scalar

/-!
Reading TOML text, version 1.1. Every reader takes the text from where it starts and gives back what
is left. The first argument of a recursive reader bounds its steps; every step takes at least one
character.
-/

namespace ReactiveTree.Toml.Reader

def isBlank (c : Char) : Bool := c = ' ' || c = '\t'

def skipBlank (text : List Char) : List Char := text.dropWhile isBlank

def isPlain (c : Char) : Bool := c = '\t' || (0x20 ≤ c.toNat && c.toNat ≠ 0x7F)

def newline? : List Char → Option (List Char)
  | '\n' :: rest => some rest
  | '\r' :: '\n' :: rest => some rest
  | _ => none

def skipComment : List Char → List Char
  | '#' :: rest => rest.dropWhile isPlain
  | text => text

def endOfLine? (text : List Char) : Option (List Char) :=
  match skipComment (skipBlank text) with
  | [] => some []
  | rest => newline? rest

def skipLines : Nat → List Char → List Char
  | 0, text => text
  | steps + 1, text =>
    let rest := skipComment (skipBlank text)
    match newline? rest with
    | some rest => skipLines steps rest
    | none => rest

def escape? : List Char → Option (Char × List Char)
  | 'b' :: rest => some ('\x08', rest)
  | 't' :: rest => some ('\t', rest)
  | 'n' :: rest => some ('\n', rest)
  | 'f' :: rest => some ('\x0c', rest)
  | 'r' :: rest => some ('\r', rest)
  | 'e' :: rest => some ('\x1b', rest)
  | '"' :: rest => some ('"', rest)
  | '\\' :: rest => some ('\\', rest)
  | 'x' :: rest => point? 2 rest
  | 'u' :: rest => point? 4 rest
  | 'U' :: rest => point? 8 rest
  | _ => none
where
  point? (count : Nat) (text : List Char) : Option (Char × List Char) :=
    match Text.natural? 16 (text.take count) with
    | some point =>
      if (text.take count).length = count ∧ point.isValidChar then
        some (Char.ofNat point, text.drop count)
      else none
    | none => none

def basic? : Nat → List Char → Option (List Char × List Char)
  | 0, _ => none
  | _ + 1, '"' :: rest => some ([], rest)
  | steps + 1, '\\' :: rest => do
    let (c, rest) ← escape? rest
    let (cs, rest) ← basic? steps rest
    some (c :: cs, rest)
  | steps + 1, c :: rest =>
    if isPlain c then (basic? steps rest).map fun (cs, rest) => (c :: cs, rest) else none
  | _ + 1, [] => none

def literal? (text : List Char) : Option (List Char × List Char) :=
  let inside := text.takeWhile fun c => c ≠ '\'' && isPlain c
  match text.drop inside.length with
  | '\'' :: rest => some (inside, rest)
  | _ => none

/-- What is left behind the closing quotes of a text on several lines. Up to two quotes may stand
right before the closing ones. -/
def behindQuotes? (quote : Char) : List Char → Option (List Char)
  | a :: b :: c :: rest =>
    if a = quote ∧ b = quote ∧ c = quote then
      match rest with
      | d :: e :: more =>
        if d = quote then (if e = quote then some more else some (e :: more)) else some rest
      | [d] => if d = quote then some [] else some rest
      | [] => some []
    else none
  | _ => none

/-- What is left behind a text on several lines. With escapes a backslash at the end of a line
joins it to the next character that is no blank. -/
def behindLines? (quote : Char) (escapes : Bool) : Nat → List Char → Option (List Char)
  | 0, _ => none
  | steps + 1, text =>
    match behindQuotes? quote text with
    | some rest => some rest
    | none =>
      match newline? text with
      | some rest => behindLines? quote escapes steps rest
      | none =>
        match text with
        | [] => none
        | c :: rest =>
          if escapes && c = '\\' then
            match newline? (skipBlank rest) with
            | some rest => behindLines? quote escapes steps rest
            | none => do
              let (_, rest) ← escape? rest
              behindLines? quote escapes steps rest
          else if isPlain c then behindLines? quote escapes steps rest
          else none

def isBareKey (c : Char) : Bool := c.isAlphanum || c = '_' || c = '-'

def key? (steps : Nat) : List Char → Option (String × List Char)
  | '"' :: rest => (basic? steps rest).map fun (cs, rest) => (String.ofList cs, rest)
  | '\'' :: rest => (literal? rest).map fun (cs, rest) => (String.ofList cs, rest)
  | text =>
    let bare := text.takeWhile isBareKey
    if bare.isEmpty then none else some (String.ofList bare, text.dropWhile isBareKey)

def parts? : Nat → List Char → Option (List String × String × List Char)
  | 0, _ => none
  | steps + 1, text => do
    let (part, rest) ← key? steps text
    match skipBlank rest with
    | '.' :: rest =>
      let (path, last, rest) ← parts? steps (skipBlank rest)
      some (part :: path, last, rest)
    | rest => some ([], part, rest)

/-- Levels of arrays and inline tables that may be nested. The dots of a key are fewer than that. -/
def deepest : Nat := 80

def path? (steps : Nat) (text : List Char) : Option (List String × String × List Char) :=
  (parts? steps text).filter fun (path, _, _) => path.length < deepest

def isWordPart (c : Char) : Bool :=
  c.isAlphanum || c = '_' || c = '-' || c = '+' || c = '.' || c = ':'

def word (text : List Char) : List Char × List Char :=
  let first := text.takeWhile isWordPart
  let rest := text.dropWhile isWordPart
  match behindDate? first, rest with
  | some [], ' ' :: c :: more =>
    if c.isDigit then
      (first ++ ' ' :: (c :: more).takeWhile isWordPart, (c :: more).dropWhile isWordPart)
    else (first, rest)
  | _, _ => (first, rest)

/-- A whole number has to fit in 128 bits, with or without a sign. -/
def scalar? (word : List Char) : Option Toml :=
  if word = "true".toList ∨ word = "false".toList then some .other
  else match integer? word with
    | some n => if -(Nat.pow 2 127 : Int) ≤ n ∧ n < Nat.pow 2 128 then some (.integer n) else none
    | none => if isReal word || isMoment word then some .other else none

abbrev ValueReader := List Char → Option (Toml × List Char)

def behindArray? (value? : ValueReader) : Nat → List Char → Option (List Char)
  | 0, _ => none
  | steps + 1, text =>
    match skipLines steps text with
    | ']' :: rest => some rest
    | rest => do
      let (_, rest) ← value? rest
      match skipLines steps rest with
      | ',' :: rest => behindArray? value? steps rest
      | ']' :: rest => some rest
      | _ => none

def behindTable? (value? : ValueReader) (entries : Entries) : Nat → List Char → Option (List Char)
  | 0, _ => none
  | steps + 1, text =>
    match skipLines steps text with
    | '\x7d' :: rest => some rest
    | rest => do
      let (path, key, rest) ← path? steps rest
      match rest with
      | '=' :: rest =>
        let (value, rest) ← value? (skipBlank rest)
        let entries ← assign value path key entries
        match skipLines steps rest with
        | ',' :: rest => behindTable? value? entries steps rest
        | '\x7d' :: rest => some rest
        | _ => none
      | _ => none

def value? (steps : Nat) : Nat → List Char → Option (Toml × List Char)
  | room, text =>
    match text, room with
    | '"' :: '"' :: '"' :: rest, _ => (behindLines? '"' true steps rest).map (.other, ·)
    | '\'' :: '\'' :: '\'' :: rest, _ => (behindLines? '\'' false steps rest).map (.other, ·)
    | '"' :: rest, _ => (basic? steps rest).map fun (_, rest) => (.other, rest)
    | '\'' :: rest, _ => (literal? rest).map fun (_, rest) => (.other, rest)
    | '[' :: rest, room + 1 => (behindArray? (value? steps room) steps rest).map (.other, ·)
    | '\x7b' :: rest, room + 1 => (behindTable? (value? steps room) [] steps rest).map (.other, ·)
    | text, _ =>
      let (word, rest) := word text
      (scalar? word).map (·, rest)

def header? (steps : Nat) (entries : Entries) :
    List Char → Option (List String × Entries × List Char)
  | '[' :: text => do
    let (path, key, rest) ← path? steps (skipBlank text)
    match rest with
    | ']' :: ']' :: rest =>
      let entries ← within (element key) path entries
      some (path ++ [key], entries, rest)
    | _ => none
  | text => do
    let (path, key, rest) ← path? steps (skipBlank text)
    match rest with
    | ']' :: rest =>
      let entries ← within (header key) path entries
      some (path ++ [key], entries, rest)
    | _ => none

/-- The lines of a document; `current` is the path of the table that the last header opened. -/
def lines? : Nat → List String → Entries → List Char → Option Entries
  | 0, _, _, _ => none
  | steps + 1, current, entries, text =>
    match skipLines steps text with
    | [] => some entries
    | '[' :: rest => do
      let (current, entries, rest) ← header? steps entries rest
      let rest ← endOfLine? rest
      lines? steps current entries rest
    | rest => do
      let (path, key, rest) ← path? steps rest
      match rest with
      | '=' :: rest =>
        let (value, rest) ← value? steps deepest (skipBlank rest)
        let entries ← within (assign value path key) current entries
        let rest ← endOfLine? rest
        lines? steps current entries rest
      | _ => none

end Reader

def parse? (document : String) : Option Entries :=
  let text := match document.toList with
    | c :: rest => if c.toNat = 0xFEFF then rest else c :: rest
    | [] => []
  Reader.lines? (text.length + 1) [] [] text

end ReactiveTree.Toml
