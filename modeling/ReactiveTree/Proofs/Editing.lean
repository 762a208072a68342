import Mathlib.Data.List.Nodup
import Mathlib.Logic.Relation
import ReactiveTree.Graph.JsonForm

/-!
Edits of a written graph that are lost on its reader. In every record, those of the graphs written
inside nodes included, a field that holds its default may be left out, a field of a name that the
record does not have may be put in, and the fields may be put in another order. What was read before
an edit is read after it, with the same room.
-/

namespace ReactiveTree

namespace Json

/-- The parts of a document that can be edited. -/
inductive Shape where
  | graph
  | nodes
  | node
  | params
  | subtree
  | declarations
  | declaration

/-- A field of a record. It can be left out if there is a default, and edited if it has a shape. -/
structure Field where
  name : String
  fallback? : Option Json := none
  shape? : Option Shape := none

namespace Shape

def fields : Shape → List Field
  | graph => [⟨"variables", some (array []), some declarations⟩,
      ⟨"nodes", some (array []), some nodes⟩]
  | node => [⟨"kind", none, none⟩, ⟨"id", none, none⟩, ⟨"children", some (array []), none⟩,
      ⟨"params", some (Params.toJson {}), some params⟩]
  | params => [⟨"unit", some null, none⟩, ⟨"mode", some null, none⟩,
      ⟨"weights", some (array []), none⟩, ⟨"inputs", some (array []), none⟩,
      ⟨"outputs", some (array []), none⟩, ⟨"period_ms", some null, none⟩,
      ⟨"subtree", some null, some subtree⟩]
  | declaration => [⟨"name", none, none⟩, ⟨"kind", some null, none⟩, ⟨"value", some null, none⟩]
  | nodes | subtree | declarations => []

def item? : Shape → Option Shape
  | nodes => some node
  | declarations => some declaration
  | _ => none

def Content : Shape → Type
  | graph => Graph
  | nodes => List Descriptor
  | node => Descriptor
  | params => Params
  | subtree => Option Subtree
  | declarations => List Declaration
  | declaration => Declaration

def read? : (shape : Shape) → Nat → Json → Option shape.Content
  | graph => Graph.ofJson?
  | nodes => nodesOfJson?
  | node => Descriptor.ofJson?
  | params => Params.ofJson?
  | subtree => fun room => optional? (Subtree.ofJson? room)
  | declarations => declarationsOfJson?
  | declaration => Declaration.ofJson?

theorem fields_nodup (shape : Shape) : (shape.fields.map Field.name).Nodup := by
  cases shape <;> decide

theorem field_ext {shape : Shape} {field other : Field} (listed : field ∈ shape.fields)
    (listed' : other ∈ shape.fields) (same : field.name = other.name) : field = other :=
  List.inj_on_of_nodup_map shape.fields_nodup listed listed' same

end Shape

/-- One edit, anywhere in a part of a document. -/
inductive Edit : Shape → Json → Json → Prop where
  | drop {shape : Shape} {field : Field} {fallback : Json}
      {before after : List (Option String × Json)} (listed : field ∈ shape.fields)
      (default : field.fallback? = some fallback) :
      Edit shape (object (before ++ (some field.name, fallback) :: after))
        (object (before ++ after))
  | extend {shape : Shape} {name : String} {value : Json}
      {before after : List (Option String × Json)} (record : shape.fields ≠ [])
      (unknown : ∀ field ∈ shape.fields, field.name ≠ name) :
      Edit shape (object (before ++ after)) (object (before ++ (some name, value) :: after))
  | reorder {shape : Shape} {fields fields' : List (Option String × Json)}
      (record : shape.fields ≠ []) (reordered : fields.Perm fields') :
      Edit shape (object fields) (object fields')
  | field {shape inner : Shape} {field : Field} {before after : List (Option String × Json)}
      {json json' : Json} (listed : field ∈ shape.fields) (shaped : field.shape? = some inner)
      (edit : Edit inner json json') :
      Edit shape (object (before ++ (some field.name, json) :: after))
        (object (before ++ (some field.name, json') :: after))
  | item {shape inner : Shape} {before after : List Json} {json json' : Json}
      (shaped : shape.item? = some inner) (edit : Edit inner json json') :
      Edit shape (array (before ++ json :: after)) (array (before ++ json' :: after))
  | inline {json json' : Json} (edit : Edit .graph json json') :
      Edit .subtree (object [(some "Inline", json)]) (object [(some "Inline", json')])

/-! ### Reading on -/

/-- What the first result has, the second has as well, or something related. -/
def Carries {α β : Type} (related : α → β → Prop) (first : Option α) (second : Option β) : Prop :=
  ∀ a, first = some a → ∃ b, second = some b ∧ related a b

namespace Carries

variable {α β γ δ : Type} {related : α → β → Prop} {related' : γ → δ → Prop}

theorem none (second : Option β) : Carries related none second := nofun

theorem some {a : α} {b : β} (holds : related a b) : Carries related (some a) (some b) := by
  rintro _ ⟨⟩
  exact ⟨b, rfl, holds⟩

theorem refl (result : Option α) : Carries Eq result result :=
  fun a found => ⟨a, found, rfl⟩

theorem trans {first second third : Option α} (carries : Carries Eq first second)
    (carries' : Carries Eq second third) : Carries Eq first third := by
  intro a found
  obtain ⟨_, found', rfl⟩ := carries a found
  exact carries' a found'

theorem bind {first : Option α} {second : Option β} {next : α → Option γ} {next' : β → Option δ}
    (carries : Carries related first second)
    (nexts : ∀ a b, related a b → Carries related' (next a) (next' b)) :
    Carries related' (first >>= next) (second >>= next') := by
  intro c found
  obtain ⟨a, found, continued⟩ := Option.bind_eq_some_iff.mp found
  obtain ⟨b, found', holds⟩ := carries a found
  obtain ⟨d, continued', holds'⟩ := nexts a b holds c continued
  exact ⟨d, Option.bind_eq_some_iff.mpr ⟨b, found', continued'⟩, holds'⟩

theorem andThen {first second : Option α} {next next' : α → Option γ}
    (carries : Carries Eq first second) (nexts : ∀ a, Carries Eq (next a) (next' a)) :
    Carries Eq (first >>= next) (second >>= next') :=
  carries.bind fun a _ same => same ▸ nexts a

theorem map {first second : Option α} (carries : Carries Eq first second) (change : α → γ) :
    Carries Eq (first.map change) (second.map change) := by
  intro c found
  obtain ⟨a, found', rfl⟩ := Option.map_eq_some_iff.mp found
  obtain ⟨_, found', rfl⟩ := carries a found'
  exact ⟨_, by rw [found', Option.map_some], rfl⟩

theorem mapM {read : α → Option γ} {before after : List α} {item item' : α}
    (carries : Carries Eq (read item) (read item')) :
    Carries Eq ((before ++ item :: after).mapM read) ((before ++ item' :: after).mapM read) := by
  induction before with
  | nil =>
    rw [List.nil_append, List.nil_append, List.mapM_cons, List.mapM_cons]
    exact carries.andThen fun _ => refl _
  | cons first rest ih =>
    rw [List.cons_append, List.cons_append, List.mapM_cons, List.mapM_cons]
    exact (refl _).andThen fun _ => ih.andThen fun _ => refl _

end Carries

/-- All that is read from the first document is read from the second. -/
def Shape.Keeps (shape : Shape) (json json' : Json) : Prop :=
  ∀ room, Carries Eq (shape.read? room json) (shape.read? room json')

/-! ### One field of a record -/

/-- The value of a field, if there is one, unless there are several. -/
def slot? (fields : List (Option String × Json)) (name : String) : Option (Option Json) :=
  match valuesAt fields name with
  | [] => some none
  | [value] => some (some value)
  | _ => none

theorem valuesAt_append (before after : List (Option String × Json)) (name : String) :
    valuesAt (before ++ after) name = valuesAt before name ++ valuesAt after name := by
  simp [valuesAt]

theorem valuesAt_cons_self (name : String) (value : Json) (fields : List (Option String × Json)) :
    valuesAt ((some name, value) :: fields) name = value :: valuesAt fields name := by
  simp [valuesAt]

theorem valuesAt_cons_of_ne {name other : String} (apart : other ≠ name) (value : Json)
    (fields : List (Option String × Json)) :
    valuesAt ((some other, value) :: fields) name = valuesAt fields name := by
  simp [valuesAt, apart]

theorem valuesAt_perm {fields fields' : List (Option String × Json)} (perm : fields.Perm fields')
    (name : String) : (valuesAt fields name).Perm (valuesAt fields' name) :=
  (perm.filter _).map _

theorem slot?_eq_of_perm {fields fields' : List (Option String × Json)}
    (perm : fields.Perm fields') (name : String) : slot? fields name = slot? fields' name := by
  have values := valuesAt_perm perm name
  unfold slot?
  match first : valuesAt fields name, second : valuesAt fields' name with
  | [], [] => rfl
  | [value], [value'] =>
    rw [first, second, List.perm_singleton] at values
    rw [List.singleton_inj.mp values]
  | _ :: _ :: _, _ :: _ :: _ => rfl
  | [], _ :: _ | _ :: _, [] | [_], _ :: _ :: _ | _ :: _ :: _, [_] =>
    have lengths := values.length_eq
    simp [first, second] at lengths

theorem slot?_middle {before after : List (Option String × Json)} {name : String} {value : Json}
    {slot : Option Json}
    (found : slot? (before ++ (some name, value) :: after) name = some slot) :
    slot = some value ∧ valuesAt before name = [] ∧ valuesAt after name = [] := by
  unfold slot? at found
  rw [valuesAt_append, valuesAt_cons_self] at found
  match first : valuesAt before name, second : valuesAt after name with
  | [], [] =>
    rw [first, second] at found
    exact ⟨(Option.some.inj found).symm, rfl, rfl⟩
  | [], _ :: _ | [_], _ | _ :: _ :: _, _ => simp [first, second] at found

/-- What an edit of the record does to the value of one of its fields. -/
inductive Field.Edited (field : Field) : Option Json → Option Json → Prop where
  | same (slot : Option Json) : field.Edited slot slot
  | dropped {fallback : Json} (default : field.fallback? = some fallback) :
      field.Edited (some fallback) none
  | within {shape : Shape} {json json' : Json} (shaped : field.shape? = some shape)
      (keeps : shape.Keeps json json') : field.Edited (some json) (some json')

namespace Field.Edited

variable {field : Field} {slot slot' : Option Json}

theorem required {name : String} (edited : Field.Edited ⟨name, none, none⟩ slot slot') :
    (slot = none ∧ slot' = none) ∨ ∃ json, slot = some json ∧ slot' = some json := by
  cases edited with
  | same =>
    cases slot with
    | none => exact .inl ⟨rfl, rfl⟩
    | some json => exact .inr ⟨json, rfl, rfl⟩
  | dropped default => nomatch default
  | within shaped => nomatch shaped

theorem orElse?_fixed {α : Type} {name : String} {fallback : Json} {default : α}
    {read : Json → Option α} (edited : Field.Edited ⟨name, some fallback, none⟩ slot slot')
    (reads : ∀ value, read fallback = some value → value = default) :
    Carries Eq (orElse? default read slot) (orElse? default read slot') := by
  cases edited with
  | same => exact .refl _
  | dropped held =>
    obtain rfl := Option.some.inj held
    exact fun value found => ⟨default, rfl, reads value found⟩
  | within shaped => nomatch shaped

theorem orElse?_shaped {name : String} {fallback : Json} {shape : Shape} {room : Nat}
    {default : shape.Content} (edited : Field.Edited ⟨name, some fallback, some shape⟩ slot slot')
    (reads : ∀ value, shape.read? room fallback = some value → value = default) :
    Carries Eq (orElse? default (shape.read? room) slot)
      (orElse? default (shape.read? room) slot') := by
  cases edited with
  | same => exact .refl _
  | dropped held =>
    obtain rfl := Option.some.inj held
    exact fun value found => ⟨default, rfl, reads value found⟩
  | within shaped keeps =>
    obtain rfl := Option.some.inj shaped
    exact keeps room

end Field.Edited

inductive Edited : List Field → List (Option Json) → List (Option Json) → Prop where
  | nil : Edited [] [] []
  | cons {field : Field} {fields : List Field} {slot slot' : Option Json}
      {slots slots' : List (Option Json)} (first : field.Edited slot slot')
      (rest : Edited fields slots slots') :
      Edited (field :: fields) (slot :: slots) (slot' :: slots')

theorem mapM_slot?_carries {fields : List Field} {old new : List (Option String × Json)}
    (edited : ∀ field ∈ fields, Carries field.Edited (slot? old field.name)
      (slot? new field.name)) :
    Carries (Edited fields) ((fields.map Field.name).mapM (slot? old))
      ((fields.map Field.name).mapM (slot? new)) := by
  induction fields with
  | nil => exact .some .nil
  | cons field rest ih =>
    rw [List.map_cons, List.mapM_cons, List.mapM_cons]
    refine (edited field List.mem_cons_self).bind fun slot slot' first => ?_
    refine (ih fun other listed => edited other (List.mem_cons_of_mem _ listed)).bind ?_
    intro slots slots' others
    exact .some (.cons first others)

theorem record?_carries {fields : List Field} {old new : List (Option String × Json)}
    (named : old.any (·.1.isNone) = false → new.any (·.1.isNone) = false)
    (edited : ∀ field ∈ fields, Carries field.Edited (slot? old field.name)
      (slot? new field.name)) :
    Carries (Edited fields) ((object old).record? (fields.map Field.name))
      ((object new).record? (fields.map Field.name)) := by
  unfold record?
  dsimp only
  split
  · exact .none _
  · -- a name that is half a surrogate pair would refuse the record
    rename_i allNamed
    rw [if_neg (Bool.not_eq_true _ ▸ named (Bool.eq_false_iff.mpr allNamed))]
    exact mapM_slot?_carries edited

/-! ### Records -/

def Shape.Amended (shape : Shape) (json json' : Json) : Prop :=
  Carries (Edited shape.fields) (json.record? (shape.fields.map Field.name))
    (json'.record? (shape.fields.map Field.name))

theorem keeps_graph {json json' : Json} (amended : Shape.graph.Amended json json') :
    Shape.graph.Keeps json json' := by
  rintro (_ | room)
  · exact .none _
  refine amended.bind ?_
  rintro _ _ (_ | ⟨declarations, (_ | ⟨nodes, (_ | _)⟩)⟩)
  refine (declarations.orElse?_shaped ?_).andThen fun _ =>
    (nodes.orElse?_shaped ?_).andThen fun _ => .refl _
  all_goals
    rcases room with _ | room <;> rintro _ ⟨⟩
    rfl

theorem keeps_node {json json' : Json} (amended : Shape.node.Amended json json') :
    Shape.node.Keeps json json' := by
  rintro (_ | room)
  · exact .none _
  refine amended.bind ?_
  rintro _ _ (_ | ⟨kind, (_ | ⟨id, (_ | ⟨children, (_ | ⟨params, (_ | _)⟩)⟩)⟩)⟩)
  obtain ⟨rfl, rfl⟩ | ⟨kind, rfl, rfl⟩ := kind.required
  · exact .none _
  obtain ⟨rfl, rfl⟩ | ⟨id, rfl, rfl⟩ := id.required
  · exact .none _
  refine Carries.andThen (.refl _) fun _ => Carries.andThen (.refl _) fun _ =>
    (children.orElse?_fixed ?_).andThen fun _ => (params.orElse?_shaped ?_).andThen fun _ => .refl _
  · rcases room with _ | room <;> rintro _ ⟨⟩
    rfl
  · rcases room with _ | _ | room <;> rintro _ ⟨⟩
    rfl

theorem keeps_declaration {json json' : Json} (amended : Shape.declaration.Amended json json') :
    Shape.declaration.Keeps json json' := by
  rintro (_ | room)
  · exact .none _
  refine amended.bind ?_
  rintro _ _ (_ | ⟨name, (_ | ⟨kind, (_ | ⟨value, (_ | _)⟩)⟩)⟩)
  obtain ⟨rfl, rfl⟩ | ⟨name, rfl, rfl⟩ := name.required
  · exact .none _
  refine Carries.andThen (.refl _) fun _ => (kind.orElse?_fixed ?_).andThen fun _ =>
    (value.orElse?_fixed ?_).andThen fun _ => .refl _
  all_goals
    rintro _ ⟨⟩
    rfl

theorem keeps_params {json json' : Json} (amended : Shape.params.Amended json json') :
    Shape.params.Keeps json json' := by
  rintro (_ | room)
  · exact .none _
  refine amended.bind ?_
  rintro _ _ (_ | ⟨unit, (_ | ⟨mode, (_ | ⟨weights, rest⟩)⟩)⟩)
  rcases rest with _ | ⟨inputs, (_ | ⟨outputs, (_ | ⟨period, (_ | ⟨subtree, (_ | _)⟩)⟩)⟩)⟩
  refine (unit.orElse?_fixed ?_).andThen fun _ => (mode.orElse?_fixed ?_).andThen fun _ =>
    (weights.orElse?_fixed ?_).andThen fun _ => (inputs.orElse?_fixed ?_).andThen fun _ =>
    (outputs.orElse?_fixed ?_).andThen fun _ => (period.orElse?_fixed ?_).andThen fun _ =>
    (subtree.orElse?_shaped ?_).andThen fun _ => .refl _
  case refine_3 | refine_4 | refine_5 =>
    rcases room with _ | room <;> rintro _ ⟨⟩
    rfl
  all_goals
    rintro _ ⟨⟩
    rfl

theorem keeps_of_amended {shape : Shape} (record : shape.fields ≠ []) {json json' : Json}
    (amended : shape.Amended json json') : shape.Keeps json json' := by
  cases shape with
  | graph => exact keeps_graph amended
  | node => exact keeps_node amended
  | params => exact keeps_params amended
  | declaration => exact keeps_declaration amended
  | nodes | subtree | declarations => exact absurd rfl record

/-! ### Edits -/

section Records

variable {shape : Shape} {before after : List (Option String × Json)}

theorem amended_of_drop {field : Field} {fallback : Json} (listed : field ∈ shape.fields)
    (default : field.fallback? = some fallback) :
    shape.Amended (object (before ++ (some field.name, fallback) :: after))
      (object (before ++ after)) := by
  refine record?_carries (by simp) fun other listed' slot found => ?_
  by_cases same : field.name = other.name
  · obtain rfl := Shape.field_ext listed listed' same
    obtain ⟨rfl, first, second⟩ := slot?_middle found
    refine ⟨none, ?_, .dropped default⟩
    rw [slot?, valuesAt_append, first, second]
    rfl
  · refine ⟨slot, ?_, .same slot⟩
    rwa [slot?, valuesAt_append, valuesAt_cons_of_ne same, ← valuesAt_append] at found

theorem amended_of_extend {name : String} {value : Json}
    (unknown : ∀ field ∈ shape.fields, field.name ≠ name) :
    shape.Amended (object (before ++ after)) (object (before ++ (some name, value) :: after)) := by
  refine record?_carries (by simp) fun other listed slot found => ⟨slot, ?_, .same slot⟩
  rwa [slot?, valuesAt_append, valuesAt_cons_of_ne (unknown other listed).symm, ← valuesAt_append]

theorem amended_of_reorder {fields fields' : List (Option String × Json)}
    (reordered : fields.Perm fields') : shape.Amended (object fields) (object fields') := by
  refine record?_carries ?_ fun other _ slot found => ⟨slot, ?_, .same slot⟩
  · rw [reordered.any_eq]
    exact id
  · rwa [← slot?_eq_of_perm reordered]

theorem amended_of_field {field : Field} {inner : Shape} {json json' : Json}
    (listed : field ∈ shape.fields) (shaped : field.shape? = some inner)
    (keeps : inner.Keeps json json') :
    shape.Amended (object (before ++ (some field.name, json) :: after))
      (object (before ++ (some field.name, json') :: after)) := by
  refine record?_carries (by simp) fun other listed' slot found => ?_
  by_cases same : field.name = other.name
  · obtain rfl := Shape.field_ext listed listed' same
    obtain ⟨rfl, first, second⟩ := slot?_middle found
    refine ⟨some json', ?_, .within shaped keeps⟩
    rw [slot?, valuesAt_append, valuesAt_cons_self, first, second]
    rfl
  · refine ⟨slot, ?_, .same slot⟩
    rw [slot?, valuesAt_append, valuesAt_cons_of_ne same] at found ⊢
    exact found

end Records

/-- What is read from a part is read from it after an edit. -/
theorem Edit.keeps {shape : Shape} {json json' : Json} (edit : Edit shape json json') :
    shape.Keeps json json' := by
  -- by how deep the edit is: the record around it sees one field that reads as before
  induction edit with
  | drop listed default =>
    exact keeps_of_amended (List.ne_nil_of_mem listed) (amended_of_drop listed default)
  | extend record unknown => exact keeps_of_amended record (amended_of_extend unknown)
  | reorder record reordered => exact keeps_of_amended record (amended_of_reorder reordered)
  | field listed shaped _ ih =>
    exact keeps_of_amended (List.ne_nil_of_mem listed) (amended_of_field listed shaped ih)
  | @item shape inner before after json json' shaped _ ih =>
    cases shape with
    | nodes | declarations =>
      obtain rfl := Option.some.inj shaped
      rintro (_ | room)
      · exact .none _
      · exact (ih room).mapM
    | _ => nomatch shaped
  | inline _ ih =>
    rintro (_ | room)
    · exact .none _
    · exact ((ih room).map _).map _

theorem read?_of_edits {shape : Shape} {json json' : Json}
    (edits : Relation.ReflTransGen (Edit shape) json json') {room : Nat} {content : shape.Content}
    (read : shape.read? room json = some content) : shape.read? room json' = some content := by
  induction edits with
  | refl => exact read
  | tail _ edit ih =>
    obtain ⟨_, read', rfl⟩ := edit.keeps room _ ih
    exact read'

end Json

end ReactiveTree
