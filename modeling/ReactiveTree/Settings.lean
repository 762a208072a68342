import ReactiveTree.Text.Blank
import ReactiveTree.Text.LetterOrNumber

/-!
A file of settings, with `NAME=value` on its lines. A value may have quoted parts, which may go on
over several lines, and it may refer to variables. Reading ends at the first line that is no
setting; the settings before it count.
-/

namespace ReactiveTree

abbrev Environment := List (String × String)

namespace Settings

inductive Piece where
  | char (c : Char)
  | reference (name : String)
  deriving DecidableEq, Repr

structure Setting where
  name : String
  value : List Piece
  deriving DecidableEq, Repr

/-! ## Lines -/

/-- Lines with their ends, up to the first that is not in UTF-8. -/
def readable : List (List UInt8) → List (List Char)
  | [] => []
  | line :: rest =>
    match String.fromUTF8? ⟨line.toArray⟩ with
    | none => []
    | some text =>
      if !rest.isEmpty then (text.toList ++ ['\n']) :: readable rest
      else if text.isEmpty then []
      else [text.toList]

inductive Place where
  | plain
  | blank
  | escaped
  | literal (escaped : Bool)
  | quoted (escaped : Bool)
  deriving DecidableEq, Repr

/-- Behind one more character. Every second blank of a run is plain. -/
def Place.step : Place → Char → Place
  | .plain, c =>
    if Text.isBlank c && c ≠ '\n' && c ≠ '\r' then .blank else opened c
  | .blank, c => opened c
  | .escaped, _ => .plain
  | .literal false, c => if c = '\'' then .plain else .literal (c = '\\')
  | .literal true, _ => .literal false
  | .quoted false, c => if c = '"' then .plain else .quoted (c = '\\')
  | .quoted true, _ => .quoted false
where
  opened (c : Char) : Place :=
    if c = '\\' then .escaped
    else if c = '"' then .quoted false
    else if c = '\'' then .literal false
    else .plain

def upToComment : Place → List Char → List Char × Place
  | place, [] => ([], place)
  | place, c :: rest =>
    if place = .blank ∧ c = '#' then ([], .plain)
    else
      let (kept, last) := upToComment (place.step c) rest
      (c :: kept, last)

/-- Joins the lines that quotes and escapes hold together. The last one is dropped if it is not
complete. -/
def joined : Place → List Char → List (List Char) → List (List Char)
  | _, _, [] => []
  | place, begun, line :: rest =>
    if ((begun ++ line).dropWhile Text.isBlank).head? = some '#' then joined .plain [] rest
    else
      let (kept, last) := upToComment place line
      if last = .plain then (begun ++ kept) :: joined .plain [] rest
      else joined last (begun ++ kept) rest

/-! ## Settings -/

inductive Mode where
  | bare
  | literal
  | quoted
  | escape (quoted : Bool)
  | reference (quoted : Bool) (name : List Char)
  | braced (quoted : Bool) (name : List Char)
  | ended

def Mode.between (quoted : Bool) : Mode := if quoted then .quoted else .bare

def escape? (c : Char) : Option Char :=
  if c = 'n' then some '\n'
  else if ['\\', '\'', '"', '$', ' '].contains c then some c
  else none

def isReferenceChar (c : Char) : Bool := Text.isLetterOrNumber c

/-- The rest of a value. The character behind a reference stands for itself, whatever it is. -/
def pieces? : Mode → List Char → Option (List Piece)
  | .bare, [] | .escape false, [] | .ended, [] => some []
  | .reference false name, [] => some [.reference (String.ofList name)]
  | _, [] => none
  | .bare, c :: rest =>
    if c = '$' then pieces? (.reference false []) rest
    else if c = '\'' then pieces? .literal rest
    else if c = '"' then pieces? .quoted rest
    else if c = '\\' then pieces? (.escape false) rest
    else if c = ' ' ∨ c = '\t' then pieces? .ended rest
    else (pieces? .bare rest).map (.char c :: ·)
  | .literal, c :: rest =>
    if c = '\'' then pieces? .bare rest else (pieces? .literal rest).map (.char c :: ·)
  | .quoted, c :: rest =>
    if c = '$' then pieces? (.reference true []) rest
    else if c = '"' then pieces? .bare rest
    else if c = '\\' then pieces? (.escape true) rest
    else (pieces? .quoted rest).map (.char c :: ·)
  | .escape quoted, c :: rest => do
    let c ← escape? c
    let pieces ← pieces? (.between quoted) rest
    some (.char c :: pieces)
  | .reference quoted name, c :: rest =>
    if isReferenceChar c then pieces? (.reference quoted (name ++ [c])) rest
    else if c = '\x7b' ∧ name = [] then pieces? (.braced quoted []) rest
    else do
      let found := Piece.reference (String.ofList name)
      if c = '$' then
        let pieces ← pieces? (.reference quoted []) rest
        some (found :: pieces)
      else
        let pieces ← pieces? (.between quoted) rest
        some (found :: .char c :: pieces)
  | .braced quoted name, c :: rest =>
    if c = '\x7d' then
      (pieces? (.between quoted) rest).map (.reference (String.ofList name) :: ·)
    else pieces? (.braced quoted (name ++ [c])) rest
  | .ended, c :: rest =>
    if c = ' ' ∨ c = '\t' then pieces? .ended rest
    else if c = '#' then some []
    else none

def isNameChar (c : Char) : Bool := c.isAlphanum || c = '_' || c = '.'

def name? (text : List Char) : Option (String × List Char) :=
  match text with
  | c :: _ =>
    if c.isAlpha || c = '_' then
      some (String.ofList (text.takeWhile isNameChar),
        (text.dropWhile isNameChar).dropWhile Text.isBlank)
    else none
  | [] => none

def equal? : List Char → Option (List Char)
  | '=' :: rest => some rest
  | _ => none

def line? (line : List Char) : Option (Option Setting) :=
  match Text.trim line with
  | [] | '#' :: _ => some none
  | text => do
    let (name, rest) ← name? text
    let (name, rest) ←
      match equal? rest with
      | some rest => some (name, rest)
      | none =>
        if name = "export" then do
          let (name, rest) ← name? rest
          (equal? rest).map fun rest => (name, rest)
        else none
    match rest.dropWhile Text.isBlank with
    | [] | '#' :: _ => some (some ⟨name, []⟩)
    | value => (pieces? .bare value).map fun pieces => some ⟨name, pieces⟩

def collect : List (List Char) → List Setting
  | [] => []
  | line :: rest =>
    match line? line with
    | none => []
    | some setting? => setting?.toList ++ collect rest

def read (file : ByteArray) : List Setting :=
  let bytes := file.data.toList
  let bytes := if bytes.take 3 = [0xEF, 0xBB, 0xBF] then bytes.drop 3 else bytes
  collect (joined .plain [] (readable (Text.splitOn 10 bytes)))

/-! ## Values -/

def expand (environment : Environment) (value : List Piece) : String :=
  value.foldl (fun text piece => match piece with
    | .char c => text.push c
    | .reference name => text ++ (environment.lookup name).getD "") ""

/-- Adds settings one after the other. A variable that is there keeps its value. -/
def extend (environment : Environment) : List Setting → Environment
  | [] => environment
  | setting :: rest =>
    if (environment.lookup setting.name).isSome then extend environment rest
    else extend ((setting.name, expand environment setting.value) :: environment) rest

def mentioned (settings : List Setting) : List String :=
  settings.flatMap fun setting => setting.name :: setting.value.filterMap fun piece =>
    match piece with
    | .char _ => none
    | .reference name => some name

end Settings

end ReactiveTree
