import ReactiveTree.Text.Blank

/-!
Paths as text, with `/` between their parts.
-/

namespace ReactiveTree.Path

def join (directory path : String) : String :=
  if path.startsWith "/" then path
  else if directory = "" || directory.endsWith "/" then directory ++ path
  else directory ++ "/" ++ path

def parts (path : String) : List String :=
  (Text.splitOn '/' path.toList).map String.ofList

/-- The last part, unless it leads upwards or there is none. Empty parts and parts that stay where
they are do not count. -/
def fileName? (path : String) : Option String :=
  match ((parts path).filter fun part => part ≠ "" && part ≠ ".").getLast? with
  | some ".." => none
  | name? => name?

/-- Splits a name at its last dot. A dot at the front does not count. -/
def splitName (name : String) : String × Option String :=
  let reversed := name.toList.reverse
  match reversed.dropWhile (· ≠ '.') with
  | _ :: stem =>
    if stem.isEmpty then (name, none)
    else (String.ofList stem.reverse, some (String.ofList (reversed.takeWhile (· ≠ '.')).reverse))
  | [] => (name, none)

def extension? (path : String) : Option String :=
  (fileName? path).bind fun name => (splitName name).2

end ReactiveTree.Path
