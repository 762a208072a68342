import ReactiveTree.Content.Storage
import ReactiveTree.Graph.RonForm
import ReactiveTree.Graph.TomlForm

/-!
Loading graphs, libraries of graphs and tunings from a storage. The extension of a file tells the
format of its graph. A library is a directory: each of its files with such an extension is an entry
under its name without the extension.
-/

namespace ReactiveTree

inductive GraphFormat where
  | ron
  | json
  deriving DecidableEq, Repr

namespace GraphFormat

def name : GraphFormat → String
  | ron => "RON"
  | json => "JSON"

def ofPath? (path : String) : Option GraphFormat :=
  match Path.extension? path with
  | some extension =>
    if Text.sameButCase extension "ron" then some ron
    else if Text.sameButCase extension "json" then some json
    else none
  | none => none

def parse? : GraphFormat → String → Option Graph
  | ron => Graph.parseRon?
  | json => Graph.parseJson?

end GraphFormat

inductive LoadError where
  | unreadable (path : String)
  | unlisted (path : String)
  | unsupported (path : String)
  | graph (format : GraphFormat) (path : Option String)
  | tuning
  | duplicate (name directory : String)
  deriving DecidableEq, Repr

def LoadError.message : LoadError → String
  | .unreadable path => "Failed to read file " ++ path
  | .unlisted path => "Failed to read directory " ++ path
  | .unsupported path => "Unsupported graph file " ++ path ++ " (expected .ron or .json)"
  | .graph format none => "Failed to parse graph " ++ format.name
  | .graph format (some path) => "Failed to parse graph " ++ format.name ++ " (" ++ path ++ ")"
  | .tuning => "Failed to parse config TOML"
  | .duplicate name directory => "Duplicate subtree '" ++ name ++ "' in " ++ directory

def parseGraph (format : GraphFormat) (text : String) : Except LoadError Graph :=
  match format.parse? text with
  | some graph => .ok graph
  | none => .error (.graph format none)

def parseTuning (text : String) : Except LoadError Tuning :=
  match Tuning.parseToml? text with
  | some tuning => .ok tuning
  | none => .error .tuning

namespace Storage

variable (storage : Storage)

section Reading

variable (parse : GraphFormat → String → Option Graph)

/-- The format is looked at before the file. -/
def graphBy (path : String) : Except LoadError Graph :=
  match GraphFormat.ofPath? path with
  | none => .error (.unsupported path)
  | some format =>
    match storage.text? path with
    | none => .error (.unreadable path)
    | some text =>
      match parse format text with
      | some graph => .ok graph
      | none => .error (.graph format (some path))

/-- Adds the graphs of files one after the other. No two of them may have one name. -/
def addGraphs (directory : String) : List String → Library → Except LoadError Library
  | [], library => .ok library
  | file :: files, library =>
    match storage.graphBy parse (Path.join directory file) with
    | .error error => .error error
    | .ok graph =>
      let name := (Path.splitName file).1
      if (library.get? name).isSome then .error (.duplicate name directory)
      else addGraphs directory files (library.insert name graph)

/-- Files are taken in the order of their names, however they are listed. -/
def libraryBy (directory : String) : Except LoadError Library :=
  match storage.files? directory with
  | none => .error (.unlisted directory)
  | some files =>
    let graphs := files.filter fun file => (GraphFormat.ofPath? file).isSome
    storage.addGraphs parse directory (graphs.mergeSort fun a b => a ≤ b) {}

end Reading

def graph (path : String) : Except LoadError Graph := storage.graphBy GraphFormat.parse? path

def library (directory : String) : Except LoadError Library :=
  storage.libraryBy GraphFormat.parse? directory

def tuning (path : String) : Except LoadError Tuning :=
  match storage.text? path with
  | none => .error (.unreadable path)
  | some text => parseTuning text

end Storage

/-- A directory with the tuning `tree.toml`, graphs in `trees` and a library in `subtrees`. -/
structure Content where
  storage : Storage
  directory : String

namespace Content

def tuning (content : Content) : Except LoadError Tuning :=
  let path := Path.join content.directory "tree.toml"
  if content.storage.contains path then content.storage.tuning path else .ok {}

/-- A graph by its name. If it is there in both formats, RON is taken. -/
def tree (content : Content) (name : String) : Except LoadError Graph :=
  let trees := Path.join content.directory "trees"
  let ron := Path.join trees (name ++ ".ron")
  if content.storage.contains ron then content.storage.graph ron
  else content.storage.graph (Path.join trees (name ++ ".json"))

def library (content : Content) : Except LoadError Library :=
  let directory := Path.join content.directory "subtrees"
  if content.storage.isDirectory directory then content.storage.library directory else .ok {}

end Content

end ReactiveTree
