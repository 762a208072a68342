import Mathlib.Data.List.Sort
import Mathlib.Data.String.Basic
import ReactiveTree.Content

/-!
Libraries read from a directory. Its files are told by their names alone: a name that ends in a dot
and the extension of a format, in any case of letters, is that of a graph, and what stands before
the dot is the name of the entry. The library has an entry for each such file, or there is an error,
which is that of the first file in the order of names.
-/

namespace ReactiveTree

/-! ### Names of files -/

section Splitting

variable {α : Type} [DecidableEq α] {separator : α}

theorem splitOn_ne_nil (text : List α) : Text.splitOn separator text ≠ [] := by
  cases text with
  | nil => exact List.cons_ne_nil _ _
  | cons a rest =>
    rw [Text.splitOn]
    split
    · exact List.cons_ne_nil _ _
    · split <;> exact List.cons_ne_nil _ _

theorem splitOn_of_notMem {text : List α} (plain : separator ∉ text) :
    Text.splitOn separator text = [text] := by
  induction text with
  | nil => rfl
  | cons a rest ih =>
    obtain ⟨other, plain⟩ := List.ne_and_not_mem_of_not_mem_cons plain
    rw [Text.splitOn, if_neg other.symm, ih plain]

theorem splitOn_append (front back : List α) :
    Text.splitOn separator (front ++ separator :: back) =
      Text.splitOn separator front ++ Text.splitOn separator back := by
  induction front with
  | nil => simp [Text.splitOn]
  | cons a rest ih =>
    rw [List.cons_append, Text.splitOn, Text.splitOn, ih]
    split
    · rfl
    · cases parts : Text.splitOn separator rest with
      | nil => exact absurd parts (splitOn_ne_nil rest)
      | cons part others => rfl

end Splitting

namespace Path

/-- A name as a directory has it: one part of a path that leads to none of the directories around. -/
structure IsName (name : String) : Prop where
  filled : name ≠ ""
  single : '/' ∉ name.toList
  inside : name ≠ "."
  below : name ≠ ".."

instance (name : String) : Decidable (IsName name) :=
  decidable_of_iff (name ≠ "" ∧ '/' ∉ name.toList ∧ name ≠ "." ∧ name ≠ "..")
    ⟨fun ⟨filled, single, inside, below⟩ => ⟨filled, single, inside, below⟩,
      fun ⟨filled, single, inside, below⟩ => ⟨filled, single, inside, below⟩⟩

theorem IsName.fileName?_of_parts {name path : String} (isName : IsName name) {front : List String}
    (parted : parts path = front ++ [name]) : fileName? path = some name := by
  have kept : (front ++ [name]).filter (fun part => part ≠ "" && part ≠ ".") =
      front.filter (fun part => part ≠ "" && part ≠ ".") ++ [name] := by
    simp [isName.filled, isName.inside]
  rw [fileName?, parted, kept, List.getLast?_concat]
  split
  · rename_i above
    exact absurd (Option.some.inj above) isName.below
  · rfl

theorem parts_of_name {name : String} (isName : IsName name) : parts name = [] ++ [name] := by
  simp [parts, splitOn_of_notMem isName.single]

theorem parts_append {name directory : String} (isName : IsName name) :
    parts (directory ++ "/" ++ name) = parts directory ++ [name] := by
  have characters : (directory ++ "/" ++ name).toList =
      directory.toList ++ '/' :: name.toList := by
    simp
  rw [parts, characters, splitOn_append, splitOn_of_notMem isName.single]
  simp [parts]

theorem fileName?_join {name : String} (isName : IsName name) (directory : String) :
    fileName? (join directory name) = some name := by
  unfold join
  split
  · exact isName.fileName?_of_parts (parts_of_name isName)
  · split
    · rename_i closed
      rw [Bool.or_eq_true, decide_eq_true_eq, ← String.endsWith_toSlice,
        String.Slice.endsWith_string_iff, String.copy_toSlice] at closed
      rcases closed with rfl | ⟨front, same⟩
      · rw [String.empty_append]
        exact isName.fileName?_of_parts (parts_of_name isName)
      · have written : directory = String.ofList front ++ "/" := by
          rw [← String.toList_inj, ← same]
          simp
        rw [written]
        exact isName.fileName?_of_parts (parts_append isName)
    · exact isName.fileName?_of_parts (parts_append isName)

theorem cut_at_dot {text before : List Char} {dot : Char}
    (rest : text.dropWhile (· ≠ '.') = dot :: before) :
    text = text.takeWhile (· ≠ '.') ++ '.' :: before ∧ '.' ∉ text.takeWhile (· ≠ '.') := by
  induction text with
  | nil => nomatch rest
  | cons c text ih =>
    by_cases isDot : c = '.'
    · rw [List.dropWhile_cons_of_neg (by simp [isDot])] at rest
      rw [List.takeWhile_cons_of_neg (by simp [isDot])]
      obtain ⟨rfl, rfl⟩ := List.cons.inj rest
      exact ⟨congrArg (· :: text) isDot, List.not_mem_nil⟩
    · rw [List.dropWhile_cons_of_pos (by simp [isDot])] at rest
      rw [List.takeWhile_cons_of_pos (by simp [isDot])]
      obtain ⟨whole, plain⟩ := ih rest
      exact ⟨congrArg (c :: ·) whole, List.not_mem_cons_of_ne_of_not_mem (Ne.symm isDot) plain⟩

theorem splitName_eq_some_iff {name stem extension : String} :
    splitName name = (stem, some extension) ↔
      name = stem ++ "." ++ extension ∧ stem ≠ "" ∧ '.' ∉ extension.toList := by
  have written : name = stem ++ "." ++ extension ↔
      name.toList.reverse = extension.toList.reverse ++ '.' :: stem.toList.reverse := by
    rw [← String.toList_inj, ← List.reverse_inj]
    simp
  rw [written]
  constructor
  · intro split
    unfold splitName at split
    dsimp only at split
    split at split
    · rename_i dot before rest
      obtain ⟨whole, plain⟩ := cut_at_dot rest
      split at split
      · simp at split
      · rename_i filled
        simp only [Prod.mk.injEq, Option.some.injEq] at split
        obtain ⟨rfl, rfl⟩ := split
        refine ⟨?_, by simpa using filled, ?_⟩
        · simpa only [String.toList_ofList, List.reverse_reverse] using whole
        · simpa only [String.toList_ofList, List.mem_reverse] using plain
    · simp at split
  · rintro ⟨reversed, filled, plain⟩
    have others : ∀ c ∈ extension.toList.reverse, decide (c ≠ '.') = true := by
      intro c listed
      exact decide_eq_true fun same => plain (same ▸ List.mem_reverse.mp listed)
    unfold splitName
    dsimp only
    rw [reversed, List.takeWhile_append_of_pos others, List.dropWhile_append_of_pos others]
    simp [filled]

end Path

/-! ### Files of graphs -/

def GraphFormat.extension : GraphFormat → String
  | ron => "ron"
  | json => "json"

/-- The file is one of the format: its name is that of a graph, a dot and the extension, in any case
of letters. -/
def GraphFormat.Marks (format : GraphFormat) (file name : String) : Prop :=
  ∃ extension, file = name ++ "." ++ extension ∧ name ≠ "" ∧ '.' ∉ extension.toList ∧
    Text.lower extension.toList = format.extension.toList

/-- The file can be read, and its text is a graph in the format. -/
def Storage.Holds (storage : Storage) (parse : GraphFormat → String → Option Graph)
    (directory file : String) (format : GraphFormat) (graph : Graph) : Prop :=
  ∃ text, storage.text? (Path.join directory file) = some text ∧ parse format text = some graph

namespace GraphFormat

variable {format : GraphFormat} {file name : String}

theorem ofPath?_join (isName : Path.IsName file) (directory : String) :
    ofPath? (Path.join directory file) = ofPath? file := by
  have alone : Path.fileName? file = some file :=
    isName.fileName?_of_parts (Path.parts_of_name isName)
  unfold ofPath? Path.extension?
  rw [Path.fileName?_join isName, alone]

theorem ofPath?_eq_some_iff (isName : Path.IsName file) :
    ofPath? file = some format ↔ ∃ extension, (Path.splitName file).2 = some extension ∧
      Text.lower extension.toList = format.extension.toList := by
  have alone : Path.fileName? file = some file :=
    isName.fileName?_of_parts (Path.parts_of_name isName)
  have extended : Path.extension? file = (Path.splitName file).2 := by
    rw [Path.extension?, alone, Option.bind_some]
  have ronCase : Text.lower "ron".toList = ron.extension.toList := by decide
  have jsonCase : Text.lower "json".toList = json.extension.toList := by decide
  have apart : ron.extension.toList ≠ json.extension.toList := by decide
  unfold ofPath? Text.sameButCase
  rw [extended, ronCase, jsonCase]
  cases (Path.splitName file).2 with
  | none => simp
  | some extension =>
    cases format <;> by_cases isRon : Text.lower extension.toList = ron.extension.toList <;>
      simp [isRon, apart]

theorem marks_iff (isName : Path.IsName file) :
    format.Marks file name ↔ ofPath? file = some format ∧ (Path.splitName file).1 = name := by
  rw [ofPath?_eq_some_iff isName]
  constructor
  · rintro ⟨extension, written, named, plain, known⟩
    have split := Path.splitName_eq_some_iff.mpr ⟨written, named, plain⟩
    exact ⟨⟨extension, congrArg Prod.snd split, known⟩, congrArg Prod.fst split⟩
  · rintro ⟨⟨extension, extended, known⟩, named⟩
    obtain ⟨written, filled, plain⟩ := Path.splitName_eq_some_iff.mp (Prod.ext named extended)
    exact ⟨extension, written, filled, plain, known⟩

end GraphFormat

namespace Storage

variable {storage : Storage} {parse : GraphFormat → String → Option Graph} {directory : String}

theorem graph_eq_ok_iff {file : String} (isName : Path.IsName file) {graph : Graph} :
    storage.graphBy parse (Path.join directory file) = .ok graph ↔
      ∃ format, GraphFormat.ofPath? file = some format ∧
        storage.Holds parse directory file format graph := by
  unfold Storage.graphBy Holds
  rw [GraphFormat.ofPath?_join isName]
  cases GraphFormat.ofPath? file with
  | none => simp
  | some format =>
    cases storage.text? (Path.join directory file) with
    | none => simp
    | some text => cases parsed : parse format text <;> simp [parsed]

end Storage

/-! ### Entries of a library -/

namespace Library

theorem get?_insert {library : Library} {name : String} (missing : library.get? name = none)
    (graph : Graph) (asked : String) :
    (library.insert name graph).get? asked =
      if asked = name then some graph else library.get? asked := by
  unfold insert
  rw [missing, Option.isSome_none, if_neg Bool.false_ne_true]
  unfold get? at missing ⊢
  rw [List.lookup_append]
  by_cases same : asked = name
  · rw [if_pos same, same, missing]
    simp
  · rw [if_neg same, List.lookup_cons, beq_false_of_ne same]
    simp

end Library

namespace Storage

variable {storage : Storage} {parse : GraphFormat → String → Option Graph} {directory : String}

/-- Files are added exactly if each of them loads, under a name that is not taken yet. -/
theorem exists_addGraphs_iff {files : List String} {library : Library} :
    (∃ loaded, storage.addGraphs parse directory files library = .ok loaded) ↔
      (∀ file ∈ files, ∃ graph, storage.graphBy parse (Path.join directory file) = .ok graph) ∧
      (files.map fun file => (Path.splitName file).1).Nodup ∧
      ∀ file ∈ files, library.get? (Path.splitName file).1 = none := by
  induction files generalizing library with
  | nil => simp [addGraphs]
  | cons file files ih =>
    rw [addGraphs]
    cases loads : storage.graphBy parse (Path.join directory file) with
    | error error => simp [loads]
    | ok graph =>
      dsimp only
      split
      · rename_i taken
        constructor
        · rintro ⟨loaded, made⟩
          exact nomatch made
        · rintro ⟨_, _, free⟩
          rw [free file List.mem_cons_self] at taken
          exact nomatch taken
      · rename_i fresh
        have missing : library.get? (Path.splitName file).1 = none := by simpa using fresh
        rw [ih]
        have free : (∀ other ∈ files, (library.insert (Path.splitName file).1 graph).get?
              (Path.splitName other).1 = none) ↔
            (∀ other ∈ files, (Path.splitName other).1 ≠ (Path.splitName file).1) ∧
              ∀ other ∈ files, library.get? (Path.splitName other).1 = none := by
          rw [← forall₂_and]
          refine forall₂_congr fun other _ => ?_
          rw [Library.get?_insert missing]
          split <;> simp [*]
        have apart : (Path.splitName file).1 ∉ (files.map fun file => (Path.splitName file).1) ↔
            ∀ other ∈ files, (Path.splitName other).1 ≠ (Path.splitName file).1 := by
          simp only [List.mem_map, not_exists, not_and]
        rw [free, List.map_cons, List.nodup_cons, List.forall_mem_cons, List.forall_mem_cons, apart]
        constructor
        · rintro ⟨others, distinct, unlike, untaken⟩
          exact ⟨⟨⟨graph, loads⟩, others⟩, ⟨unlike, distinct⟩, missing, untaken⟩
        · rintro ⟨⟨_, others⟩, ⟨unlike, distinct⟩, _, untaken⟩
          exact ⟨others, distinct, unlike, untaken⟩

theorem get?_addGraphs {files : List String} {library loaded : Library}
    (made : storage.addGraphs parse directory files library = .ok loaded) (name : String)
    (graph : Graph) :
    loaded.get? name = some graph ↔ library.get? name = some graph ∨
      ∃ file ∈ files, (Path.splitName file).1 = name ∧
        storage.graphBy parse (Path.join directory file) = .ok graph := by
  induction files generalizing library with
  | nil =>
    cases made
    simp
  | cons file files ih =>
    rw [addGraphs] at made
    cases loads : storage.graphBy parse (Path.join directory file) with
    | error error =>
      rw [loads] at made
      exact nomatch made
    | ok first =>
      rw [loads] at made
      dsimp only at made
      split at made
      · exact nomatch made
      · rename_i fresh
        have missing : library.get? (Path.splitName file).1 = none := by simpa using fresh
        rw [ih made, Library.get?_insert missing]
        simp only [List.mem_cons, exists_eq_or_imp]
        by_cases same : name = (Path.splitName file).1
        · subst same
          simp [missing, loads]
        · simp [same, Ne.symm same]

theorem isSome_ofPath?_iff {file : String} (isName : Path.IsName file) :
    (GraphFormat.ofPath? file).isSome ↔ ∃ format name, GraphFormat.Marks format file name := by
  simp [Option.isSome_iff_exists, GraphFormat.marks_iff isName]

theorem graph_of_marks {file name : String} {format : GraphFormat} (isName : Path.IsName file)
    (marks : format.Marks file name) {graph : Graph} :
    storage.graphBy parse (Path.join directory file) = .ok graph ↔
      storage.Holds parse directory file format graph := by
  obtain ⟨known, _⟩ := (GraphFormat.marks_iff isName).mp marks
  simp [graph_eq_ok_iff isName, known]

theorem library_eq {files : List String} (listed : storage.files? directory = some files) :
    ∃ sorted, sorted.Perm (files.filter fun file => (GraphFormat.ofPath? file).isSome) ∧
      storage.libraryBy parse directory = storage.addGraphs parse directory sorted {} := by
  unfold Storage.libraryBy
  rw [listed]
  exact ⟨_, List.mergeSort_perm _ _, rfl⟩

theorem graphs_load_iff {files : List String} (names : ∀ file ∈ files, Path.IsName file) :
    (∀ file ∈ files.filter fun file => (GraphFormat.ofPath? file).isSome,
        ∃ graph, storage.graphBy parse (Path.join directory file) = .ok graph) ↔
      ∀ file ∈ files, ∀ format name, GraphFormat.Marks format file name →
        ∃ graph, storage.Holds parse directory file format graph := by
  simp only [List.mem_filter, and_imp]
  refine forall₂_congr fun file member => ?_
  rw [isSome_ofPath?_iff (names file member)]
  constructor
  · intro loads format name marks
    obtain ⟨graph, loads⟩ := loads ⟨format, name, marks⟩
    exact ⟨graph, (graph_of_marks (names file member) marks).mp loads⟩
  · rintro holds ⟨format, name, marks⟩
    obtain ⟨graph, holds⟩ := holds format name marks
    exact ⟨graph, (graph_of_marks (names file member) marks).mpr holds⟩

theorem names_apart_iff {files : List String} (names : ∀ file ∈ files, Path.IsName file) :
    ((files.filter fun file => (GraphFormat.ofPath? file).isSome).map
        fun file => (Path.splitName file).1).Nodup ↔
      files.Pairwise fun file file' => ∀ format format' name name',
        GraphFormat.Marks format file name → GraphFormat.Marks format' file' name' →
        name ≠ name' := by
  rw [List.Nodup, List.pairwise_map, List.pairwise_filter]
  refine List.Pairwise.iff_of_mem fun {file file'} member member' => ?_
  rw [isSome_ofPath?_iff (names file member), isSome_ofPath?_iff (names file' member')]
  constructor
  · intro apart format format' name name' marks marks'
    have named := ((GraphFormat.marks_iff (names file member)).mp marks).2
    have named' := ((GraphFormat.marks_iff (names file' member')).mp marks').2
    exact named ▸ named' ▸ apart ⟨format, name, marks⟩ ⟨format', name', marks'⟩
  · rintro apart ⟨format, name, marks⟩ ⟨format', name', marks'⟩
    have named := ((GraphFormat.marks_iff (names file member)).mp marks).2
    have named' := ((GraphFormat.marks_iff (names file' member')).mp marks').2
    exact named ▸ named' ▸ apart format format' name name' marks marks'

theorem exists_library_iff {files : List String} (listed : storage.files? directory = some files)
    (names : ∀ file ∈ files, Path.IsName file) :
    (∃ library, storage.libraryBy parse directory = .ok library) ↔
      (∀ file ∈ files, ∀ format name, GraphFormat.Marks format file name →
        ∃ graph, storage.Holds parse directory file format graph) ∧
      files.Pairwise fun file file' => ∀ format format' name name',
        GraphFormat.Marks format file name → GraphFormat.Marks format' file' name' →
        name ≠ name' := by
  obtain ⟨sorted, perm, loads⟩ := library_eq listed
  have same : (∀ file ∈ sorted,
        ∃ graph, storage.graphBy parse (Path.join directory file) = .ok graph) ↔
      ∀ file ∈ files.filter fun file => (GraphFormat.ofPath? file).isSome,
        ∃ graph, storage.graphBy parse (Path.join directory file) = .ok graph := by
    simp only [perm.mem_iff]
  rw [loads, exists_addGraphs_iff, same, graphs_load_iff names, (perm.map _).nodup_iff,
    names_apart_iff names]
  exact and_congr_right fun _ => and_iff_left fun _ _ => rfl

theorem get?_library {files : List String} (listed : storage.files? directory = some files)
    (names : ∀ file ∈ files, Path.IsName file) {library : Library}
    (made : storage.libraryBy parse directory = .ok library) (name : String) (graph : Graph) :
    library.get? name = some graph ↔ ∃ file ∈ files, ∃ format,
      GraphFormat.Marks format file name ∧ storage.Holds parse directory file format graph := by
  obtain ⟨sorted, perm, loads⟩ := library_eq listed
  rw [loads] at made
  have unfilled : ({} : Library).get? name ≠ some graph := nofun
  rw [get?_addGraphs made, or_iff_right unfilled]
  refine exists_congr fun file => ?_
  rw [perm.mem_iff, List.mem_filter, and_assoc]
  refine and_congr_right fun member => ?_
  constructor
  · rintro ⟨known, rfl, loads⟩
    obtain ⟨format, known⟩ := Option.isSome_iff_exists.mp known
    have marks := (GraphFormat.marks_iff (names file member)).mpr ⟨known, rfl⟩
    exact ⟨format, marks, (graph_of_marks (names file member) marks).mp loads⟩
  · rintro ⟨format, marks, holds⟩
    obtain ⟨known, named⟩ := (GraphFormat.marks_iff (names file member)).mp marks
    exact ⟨by simp [known], named, (graph_of_marks (names file member) marks).mpr holds⟩

theorem library_perm {other : Storage} {files files' : List String}
    (listed : storage.files? directory = some files)
    (listed' : other.files? directory = some files') (reads : other.read? = storage.read?)
    (reordered : files'.Perm files) :
    other.libraryBy parse directory = storage.libraryBy parse directory := by
  have sorts : (files'.filter fun file => (GraphFormat.ofPath? file).isSome).mergeSort (· ≤ ·) =
      (files.filter fun file => (GraphFormat.ofPath? file).isSome).mergeSort (· ≤ ·) :=
    ((List.mergeSort_perm _ _).trans
      ((reordered.filter _).trans (List.mergeSort_perm _ _).symm)).eq_of_sortedLE
      List.sortedLE_mergeSort List.sortedLE_mergeSort
  have adds (added : List String) (library : Library) :
      other.addGraphs parse directory added library =
        storage.addGraphs parse directory added library := by
    induction added generalizing library with
    | nil => rfl
    | cons file added ih =>
      simp only [addGraphs, Storage.graphBy, text?, reads, ih]
  unfold Storage.libraryBy
  rw [listed, listed']
  dsimp only
  rw [adds, sorts]

/-- Whatever reads the graphs, a library is loaded exactly if every file of a graph holds one and no
two of them are for one name. It has the graphs of these files and no others, and the order in which
the directory lists its files changes nothing, not even the error. -/
theorem library_by_reader (storage : Storage) (parse : GraphFormat → String → Option Graph)
    (directory : String) (files : List String) (listed : storage.files? directory = some files)
    (names : ∀ file ∈ files, Path.IsName file) :
    ((∃ library, storage.libraryBy parse directory = .ok library) ↔
      (∀ file ∈ files, ∀ format name, GraphFormat.Marks format file name →
        ∃ graph, storage.Holds parse directory file format graph) ∧
      files.Pairwise fun file file' => ∀ format format' name name',
        GraphFormat.Marks format file name → GraphFormat.Marks format' file' name' →
        name ≠ name') ∧
    (∀ library, storage.libraryBy parse directory = .ok library → ∀ name graph,
      library.get? name = some graph ↔ ∃ file ∈ files, ∃ format,
        GraphFormat.Marks format file name ∧ storage.Holds parse directory file format graph) ∧
    ∀ other : Storage, other.read? = storage.read? →
      ∀ files', other.files? directory = some files' → files'.Perm files →
        other.libraryBy parse directory = storage.libraryBy parse directory := by
  refine ⟨exists_library_iff listed names, ?_, ?_⟩
  · intro library made name graph
    exact get?_library listed names made name graph
  · intro other reads files' listed' reordered
    exact library_perm listed listed' reads reordered

end Storage

/-- The case of the two formats: each file is read by the reader of the format that marks it. -/
theorem library_holds_graph_files (storage : Storage) (directory : String) (files : List String)
    (listed : storage.files? directory = some files)
    (names : ∀ file ∈ files, Path.IsName file) :
    ((∃ library, storage.library directory = .ok library) ↔
      (∀ file ∈ files, ∀ format name, GraphFormat.Marks format file name →
        ∃ graph, storage.Holds GraphFormat.parse? directory file format graph) ∧
      files.Pairwise fun file file' => ∀ format format' name name',
        GraphFormat.Marks format file name → GraphFormat.Marks format' file' name' →
        name ≠ name') ∧
    (∀ library, storage.library directory = .ok library → ∀ name graph,
      library.get? name = some graph ↔ ∃ file ∈ files, ∃ format,
        GraphFormat.Marks format file name ∧
          storage.Holds GraphFormat.parse? directory file format graph) ∧
    ∀ other : Storage, other.read? = storage.read? →
      ∀ files', other.files? directory = some files' → files'.Perm files →
        other.library directory = storage.library directory :=
  storage.library_by_reader GraphFormat.parse? directory files listed names

def shelf : Storage :=
  (((({} : Snapshot).add "subtrees/patrol.RON" "(nodes: [])".toUTF8).add "subtrees/idle.json"
    "\x7b\x7d".toUTF8).add "subtrees/notes.md" "Not a graph".toUTF8).storage

def shelved : List String := ["patrol.RON", "idle.json", "notes.md"]

theorem shelf_holds_graph_files : shelf.files? "subtrees" = some shelved ∧
    (∀ file ∈ shelved, Path.IsName file) ∧
    ∃ library, shelf.library "subtrees" = .ok library ∧ library.get? "notes" = none ∧
      ∃ graph, library.get? "patrol" = some graph := by
  have listed : shelf.files? "subtrees" = some shelved := by decide +kernel
  have names : ∀ file ∈ shelved, Path.IsName file := by decide
  obtain ⟨loads, gets, _⟩ := library_holds_graph_files shelf "subtrees" shelved listed names
  have loaded : ∀ file ∈ shelved.filter fun file => (GraphFormat.ofPath? file).isSome,
      ∃ graph, shelf.graphBy GraphFormat.parse? (Path.join "subtrees" file) = .ok graph := by
    have ok : ∀ file ∈ shelved.filter fun file => (GraphFormat.ofPath? file).isSome,
        (shelf.graphBy GraphFormat.parse? (Path.join "subtrees" file)).isOk := by decide +kernel
    intro file member
    have ok := ok file member
    cases loads : shelf.graphBy GraphFormat.parse? (Path.join "subtrees" file) with
    | ok graph => exact ⟨graph, rfl⟩
    | error error => exact nomatch loads ▸ ok
  have holds := (Storage.graphs_load_iff names).mp loaded
  have apart := (Storage.names_apart_iff names).mp (by decide)
  obtain ⟨library, made⟩ := loads.mpr ⟨holds, apart⟩
  refine ⟨listed, names, library, made, ?_, ?_⟩
  · have unmarked : ∀ file ∈ shelved, (GraphFormat.ofPath? file).isSome →
        (Path.splitName file).1 ≠ "notes" := by decide
    rw [Option.eq_none_iff_forall_ne_some]
    intro graph found
    obtain ⟨file, member, format, marks, _⟩ := (gets library made "notes" graph).mp found
    obtain ⟨known, named⟩ := (GraphFormat.marks_iff (names file member)).mp marks
    exact unmarked file member (by simp [known]) named
  · have marks : GraphFormat.ron.Marks "patrol.RON" "patrol" :=
      ⟨"RON", by decide, by decide, by decide, by decide⟩
    have member : "patrol.RON" ∈ shelved := by decide
    obtain ⟨graph, held⟩ := holds "patrol.RON" member .ron "patrol" marks
    exact ⟨graph, (gets library made "patrol" graph).mpr ⟨_, member, _, marks, held⟩⟩

end ReactiveTree
