import ReactiveTree.Content.Path

/-!
What content is loaded from. A storage gives the bytes of files and the names of the regular files
in a directory, in no particular order; what cannot be read is missing. A snapshot of a directory
tree is one such storage.
-/

namespace ReactiveTree

structure Storage where
  read? : String → Option ByteArray
  files? : String → Option (List String)

namespace Storage

def text? (storage : Storage) (path : String) : Option String :=
  (storage.read? path).bind String.fromUTF8?

def isDirectory (storage : Storage) (path : String) : Bool :=
  (storage.files? path).isSome

def contains (storage : Storage) (path : String) : Bool :=
  (storage.read? path).isSome || storage.isDirectory path

end Storage

inductive Entry where
  | file (content : ByteArray)
  | directory

/-- Entries by the parts of their paths, seen from one directory. What an entry lies in is a
directory too. -/
structure Snapshot where
  entries : List (List String × Entry) := []

namespace Snapshot

def add (snapshot : Snapshot) (path : String) (content : ByteArray) : Snapshot :=
  let place := (Path.parts path).filter (· ≠ "")
  ⟨snapshot.entries ++ [(place, if path.endsWith "/" then .directory else .file content)]⟩

def entry? (snapshot : Snapshot) (place : List String) : Option Entry :=
  match snapshot.entries.lookup place with
  | some entry => some entry
  | none =>
    if place.isEmpty || snapshot.entries.any fun entry => place.isPrefixOf entry.1 then
      some .directory
    else none

/-- Walks along the parts of a path. Every part is looked for in a directory; there is no way up
from the topmost one. -/
def walk? (snapshot : Snapshot) : List String → List String → Option (List String)
  | place, [] => some place
  | place, part :: rest =>
    match snapshot.entry? place with
    | some .directory =>
      if part = "" ∨ part = "." then walk? snapshot place rest
      else if part = ".." then
        if place.isEmpty then none else walk? snapshot place.dropLast rest
      else if (snapshot.entry? (place ++ [part])).isSome then walk? snapshot (place ++ [part]) rest
      else none
    | _ => none

def resolve? (snapshot : Snapshot) (path : String) : Option (List String × Entry) :=
  if path = "" ∨ path.startsWith "/" then none
  else do
    let place ← snapshot.walk? [] (Path.parts path)
    let entry ← snapshot.entry? place
    some (place, entry)

def storage (snapshot : Snapshot) : Storage where
  read? path :=
    match snapshot.resolve? path with
    | some (_, .file content) => some content
    | _ => none
  files? path :=
    match snapshot.resolve? path with
    | some (place, .directory) =>
      some (snapshot.entries.filterMap fun entry =>
        match entry with
        | (file, .file _) =>
          if file.dropLast = place then file.getLast? else none
        | _ => none)
    | _ => none

end Snapshot

end ReactiveTree
