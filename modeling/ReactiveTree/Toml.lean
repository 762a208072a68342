/-!
TOML tables as they grow while a document is read. A table comes to be by its own header, on the way
to another header, or by a key with dots, and that decides who may add to it.
-/

namespace ReactiveTree

inductive Toml.Origin where
  /-- Named on the way to a header only; its own header may still follow. -/
  | passed
  | header
  | dotted
  deriving DecidableEq, Repr

/-- Of values only whole numbers are kept. Inline tables and arrays are values, to which nothing can
be added. -/
inductive Toml where
  | integer (n : Int)
  | other
  | table (origin : Toml.Origin) (entries : List (String × Toml))
  | tables (before : List (List (String × Toml))) (last : List (String × Toml))
  deriving Repr

namespace Toml

abbrev Entries := List (String × Toml)

def replace (key : String) (item : Toml) (entries : Entries) : Entries :=
  entries.map fun entry => if entry.1 = key then (key, item) else entry

/-- Changes the table that a header names, passing through arrays of tables by their last one. -/
def within (change : Entries → Option Entries) : List String → Entries → Option Entries
  | [], entries => change entries
  | key :: path, entries =>
    match entries.lookup key with
    | none => (within change path []).map fun inner => entries ++ [(key, .table .passed inner)]
    | some (.table origin inner) =>
      (within change path inner).map fun inner => replace key (.table origin inner) entries
    | some (.tables before last) =>
      (within change path last).map fun last => replace key (.tables before last) entries
    | some _ => none

def header (key : String) (entries : Entries) : Option Entries :=
  match entries.lookup key with
  | none => some (entries ++ [(key, .table .header [])])
  | some (.table .passed inner) => some (replace key (.table .header inner) entries)
  | some _ => none

def element (key : String) (entries : Entries) : Option Entries :=
  match entries.lookup key with
  | none => some (entries ++ [(key, .tables [] [])])
  | some (.tables before last) => some (replace key (.tables (before ++ [last]) []) entries)
  | some _ => none

/-- Gives a key, with dots or without, its value. Every key has one value. A dotted key adds to no
table that has or awaits a header, though it may pass through the latter and through the last table of
an array. -/
def assign (value : Toml) : List String → String → Entries → Option Entries
  | [], key, entries =>
    if (entries.lookup key).isSome then none else some (entries ++ [(key, value)])
  | step :: path, key, entries =>
    match entries.lookup step with
    | none =>
      (assign value path key []).map fun inner => entries ++ [(step, .table .dotted inner)]
    | some (.table .dotted inner) =>
      (assign value path key inner).map fun inner => replace step (.table .dotted inner) entries
    | some (.table .passed inner) =>
      if path.isEmpty then none
      else (assign value path key inner).map fun inner => replace step (.table .passed inner) entries
    | some (.tables before last) =>
      if path.isEmpty then none
      else (assign value path key last).map fun last => replace step (.tables before last) entries
    | some _ => none

end Toml

end ReactiveTree
