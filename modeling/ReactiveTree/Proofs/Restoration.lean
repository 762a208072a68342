import Mathlib.Data.List.Forall2
import ReactiveTree.Proofs.Editing
import ReactiveTree.Proofs.Precision

/-!
Written graphs are read back. A graph can be written if its weights are finite and its variables
are of kinds that have a name in documents, down to the graphs of its function nodes. It is read from
what was written, and from every edit of it that leaves out defaults, puts in unknown fields or
reorders fields, by a reader that has room for the levels that were written.
-/

namespace ReactiveTree

namespace Json

mutual

def depth : Json → Nat
  | array items => itemsDepth items + 1
  | object fields => fieldsDepth fields + 1
  | null | bool _ | number _ | string _ => 0
  termination_by structural json => json

def itemsDepth : List Json → Nat
  | [] => 0
  | item :: items => max item.depth (itemsDepth items)
  termination_by structural items => items

def fieldsDepth : List (Option String × Json) → Nat
  | [] => 0
  | (_, json) :: fields => max json.depth (fieldsDepth fields)
  termination_by structural fields => fields

end

/-- The reader makes the value of the document wherever there is room for its levels. -/
def Holds {α : Type} (read : Nat → Json → Option α) (json : Json) (value : α) : Prop :=
  ∀ room, json.depth ≤ room → read room json = some value

theorem Holds.leaf {α : Type} {read : Json → Option α} {json : Json} {value : α}
    (found : read json = some value) : Holds (fun _ => read) json value :=
  fun _ _ => found

theorem holds_string (text : String) : Holds (fun _ => string?) (ofString text) text :=
  .leaf rfl

theorem ofString_ne_null (text : String) : ofString text ≠ null := nofun

theorem depth_le_of_mem {fields : List (String × Json)} {room : Nat}
    (deep : fieldsDepth (fields.map fun field => (some field.1, field.2)) ≤ room) :
    ∀ field ∈ fields, field.2.depth ≤ room := by
  induction fields with
  | nil => exact nofun
  | cons field rest ih =>
    obtain ⟨here, there⟩ := Nat.max_le.mp deep
    exact List.forall_mem_cons.mpr ⟨here, ih there⟩

theorem Holds.object {α : Type} {read : Nat → Json → Option α} {fields : List (String × Json)}
    {value : α} (reads : ∀ room, (∀ field ∈ fields, field.2.depth ≤ room) →
      read (room + 1) (ofFields fields) = some value) : Holds read (ofFields fields) value := by
  rintro (_ | room) deep
  · exact absurd deep (Nat.not_succ_le_zero _)
  · exact reads room (depth_le_of_mem (Nat.le_of_succ_le_succ deep))

theorem readsOn {α β : Type} {first : Option α} {next : α → Option β} {a : α} {b : β}
    (found : first = some a) (rest : next a = some b) : first >>= next = some b :=
  Option.bind_eq_some_iff.mpr ⟨a, found, rest⟩

theorem Holds.array {α : Type} {read : Nat → Json → Option α} {read' : Nat → Json → Option (List α)}
    (enters : ∀ room json, read' (room + 1) json = json.list? (read room)) {items : List Json}
    {values : List α} (each : List.Forall₂ (Holds read) items values) :
    Holds read' (array items) values := by
  rintro (_ | room) deep
  · exact absurd deep (Nat.not_succ_le_zero _)
  rw [enters, list?]
  replace deep : itemsDepth items ≤ room := Nat.le_of_succ_le_succ deep
  induction each with
  | nil => rfl
  | cons first _ ih =>
    obtain ⟨here, there⟩ := Nat.max_le.mp deep
    rw [List.mapM_cons, first room here, ih there]
    rfl

theorem Holds.ofList {α : Type} {read : Nat → Json → Option α}
    {read' : Nat → Json → Option (List α)}
    (enters : ∀ room json, read' (room + 1) json = json.list? (read room)) {write : α → Json}
    {values : List α} (each : ∀ value ∈ values, Holds read (write value) value) :
    Holds read' (ofList write values) values := by
  refine .array enters ?_
  rw [List.forall₂_map_left_iff, List.forall₂_same]
  exact each

theorem optional?_of_ne_null {α : Type} {read : Json → Option α} {json : Json}
    (written : json ≠ null) : optional? read json = (read json).map some := by
  cases json with
  | null => exact absurd rfl written
  | _ => rfl

theorem Holds.ofOption {α : Type} {read : Nat → Json → Option α} {write : α → Json}
    (written : ∀ value, write value ≠ null) {value? : Option α}
    (each : ∀ value ∈ value?, Holds read (write value) value) :
    Holds (fun room => optional? (read room)) (ofOption write value?) value? := by
  intro room deep
  cases value? with
  | none => rfl
  | some value =>
    have found : read room (write value) = some value := each value rfl room deep
    change optional? (read room) (write value) = some (some value)
    rw [optional?_of_ne_null (written value), found, Option.map_some]

theorem holds_text? (text? : Option String) :
    Holds (fun _ => optional? string?) (ofOption ofString text?) text? :=
  .ofOption ofString_ne_null fun text _ => holds_string text

end Json

open Json

theorem Double.toSingle_ofSingle? {x : Single} (finite : x.isFinite) :
    ∃ double, Double.ofSingle? x = some double ∧ double.toSingle = x := by
  cases x with
  | notANumber | infinite negative => nomatch finite
  | finite negative units representable =>
    exact ⟨_, rfl, Single.ofRatio_of_representable representable negative (by decide +kernel)⟩

theorem ValueKind.toJson_ne_null (kind : ValueKind) : kind.toJson ≠ null := by
  unfold ValueKind.toJson
  split <;> exact nofun

theorem Subtree.toJson_ne_null (subtree : Subtree) : subtree.toJson ≠ null := by
  cases subtree <;> exact nofun

/-! ### Records -/

namespace Json

theorem holds_weight {weight : Single} (finite : weight.isFinite) :
    Holds (fun _ => single?) (ofSingle weight) weight := by
  obtain ⟨double, made, kept⟩ := Double.toSingle_ofSingle? finite
  refine .leaf ?_
  rw [ofSingle, made, Json.ofOption, single?, Numeral.single?, kept]

theorem holds_kind {kind : ValueKind} (named : ∀ name, kind ≠ .custom name) :
    Holds (case? ValueKind.cases) kind.toJson kind := by
  intro room _
  cases kind with
  | custom name => exact absurd rfl (named name)
  | _ => rfl

theorem holds_argument (argument : Argument) : Holds Argument.ofJson? argument.toJson argument := by
  cases argument <;> exact .object fun _ _ => rfl

theorem holds_declaration {declared : Declaration}
    (named : ∀ name, declared.kind ≠ some (.custom name)) :
    Holds Declaration.ofJson? declared.toJson declared := by
  have kinds : Holds (fun room => optional? (case? ValueKind.cases room))
      (ofOption ValueKind.toJson declared.kind) declared.kind :=
    .ofOption ValueKind.toJson_ne_null fun kind held =>
      holds_kind fun name same => named name (same ▸ held)
  refine .object fun room deep => ?_
  simp only [List.forall_mem_cons] at deep
  obtain ⟨-, kind, value, -⟩ := deep
  exact readsOn rfl <| readsOn rfl <| readsOn (kinds room kind) <|
    readsOn (holds_text? declared.value room value) rfl

theorem holds_texts (texts : List String) :
    Holds strings? (Json.ofList ofString texts) texts :=
  .ofList (fun _ _ => rfl) fun text _ => holds_string text

theorem holds_number? (number? : Option Nat) :
    Holds (fun _ => optional? natural?) (Json.ofOption Json.ofNat number?) number? := by
  refine .ofOption ?_ fun _ _ => .leaf rfl
  exact fun _ => nofun

theorem holds_graph {declarations : List Declaration} {nodes : List Descriptor}
    (first : Holds declarationsOfJson? (Json.ofList Declaration.toJson declarations) declarations)
    (second : Holds nodesOfJson? (.array (nodesToJson nodes)) nodes) :
    Holds Graph.ofJson? (Graph.toJson ⟨declarations, nodes⟩) ⟨declarations, nodes⟩ := by
  refine .object fun room deep => ?_
  simp only [List.forall_mem_cons] at deep
  obtain ⟨declared, listed, -⟩ := deep
  exact readsOn rfl <| readsOn (first room declared) <| readsOn (second room listed) rfl

theorem holds_node {params : Params} (last : Holds Params.ofJson? params.toJson params)
    (kind id : String) (children : List String) :
    Holds Descriptor.ofJson? (Descriptor.toJson ⟨kind, id, children, params⟩)
      ⟨kind, id, children, params⟩ := by
  refine .object fun room deep => ?_
  simp only [List.forall_mem_cons] at deep
  obtain ⟨-, -, linked, inner, -⟩ := deep
  exact readsOn rfl <| readsOn rfl <| readsOn rfl <|
    readsOn (holds_texts children room linked) <| readsOn (last room inner) rfl

theorem holds_params {weights : List Single} (finite : ∀ weight ∈ weights, weight.isFinite)
    {subtree : Option Subtree}
    (last : Holds (fun room => optional? (Subtree.ofJson? room)) (subtreeToJson subtree) subtree)
    (unit mode : Option String) (inputs : List Argument) (outputs : List String)
    (periodMs : Option Nat) :
    Holds Params.ofJson? (Params.toJson ⟨unit, mode, weights, inputs, outputs, periodMs, subtree⟩)
      ⟨unit, mode, weights, inputs, outputs, periodMs, subtree⟩ := by
  have weighed : Holds weightsOfJson? (Json.ofList Json.ofSingle weights) weights :=
    .ofList (fun _ _ => rfl) fun weight listed => holds_weight (finite weight listed)
  have given : Holds argumentsOfJson? (Json.ofList Argument.toJson inputs) inputs :=
    .ofList (fun _ _ => rfl) fun argument _ => holds_argument argument
  refine .object fun room deep => ?_
  simp only [List.forall_mem_cons] at deep
  obtain ⟨named, polled, weighs, reads, writes, ticks, inner, -⟩ := deep
  exact readsOn rfl <| readsOn (holds_text? unit room named) <|
    readsOn (holds_text? mode room polled) <| readsOn (weighed room weighs) <|
    readsOn (given room reads) <| readsOn (holds_texts outputs room writes) <|
    readsOn (holds_number? periodMs room ticks) <| readsOn (last room inner) rfl

theorem holds_inline {graph : Graph} (inner : Holds Graph.ofJson? graph.toJson graph) :
    Holds Subtree.ofJson? (Subtree.inline graph).toJson (.inline graph) := by
  refine .object fun room deep => ?_
  change (Graph.ofJson? room graph.toJson).map Subtree.inline = _
  rw [inner room (deep _ List.mem_cons_self), Option.map_some]

theorem holds_named (name : String) :
    Holds Subtree.ofJson? (Subtree.named name).toJson (.named name) :=
  .object fun _ _ => rfl

theorem holds_some {subtree : Subtree} (inner : Holds Subtree.ofJson? subtree.toJson subtree) :
    Holds (fun room => optional? (Subtree.ofJson? room)) (subtreeToJson (some subtree))
      (some subtree) := by
  intro room deep
  change optional? (Subtree.ofJson? room) subtree.toJson = _
  rw [optional?_of_ne_null subtree.toJson_ne_null, inner room deep, Option.map_some]

end Json

/-! ### Graphs -/

mutual

/-- The weights are finite and the kinds have names in documents, at all levels. -/
def Graph.Writable : Graph → Prop
  | ⟨declarations, nodes⟩ =>
    (∀ declared ∈ declarations, ∀ name, declared.kind ≠ some (.custom name)) ∧ nodesWritable nodes
  termination_by structural graph => graph

def nodesWritable : List Descriptor → Prop
  | [] => True
  | node :: nodes => node.Writable ∧ nodesWritable nodes
  termination_by structural nodes => nodes

def Descriptor.Writable : Descriptor → Prop
  | ⟨_, _, _, params⟩ => params.Writable
  termination_by structural node => node

def Params.Writable : Params → Prop
  | ⟨_, _, weights, _, _, _, subtree⟩ =>
    (∀ weight ∈ weights, weight.isFinite) ∧ subtreeWritable subtree
  termination_by structural params => params

def subtreeWritable : Option Subtree → Prop
  | none => True
  | some subtree => subtree.Writable
  termination_by structural subtree => subtree

def Subtree.Writable : Subtree → Prop
  | .inline graph => graph.Writable
  | .named _ => True
  termination_by structural subtree => subtree

end

-- by recursion on the graph: a record takes one level of room and leaves the others to its fields
mutual

theorem Graph.restored : (graph : Graph) → graph.Writable → Holds Graph.ofJson? graph.toJson graph
  | ⟨_, nodes⟩, ⟨named, writable⟩ =>
    holds_graph
      (.ofList (fun _ _ => rfl) fun declared listed => holds_declaration (named declared listed))
      (.array (fun _ _ => rfl) (nodes_restored nodes writable))
  termination_by structural graph => graph

theorem nodes_restored : (nodes : List Descriptor) → nodesWritable nodes →
    List.Forall₂ (Holds Descriptor.ofJson?) (nodesToJson nodes) nodes
  | [], _ => .nil
  | node :: nodes, ⟨first, rest⟩ => .cons (node.restored first) (nodes_restored nodes rest)
  termination_by structural nodes => nodes

theorem Descriptor.restored : (node : Descriptor) → node.Writable →
    Holds Descriptor.ofJson? node.toJson node
  | ⟨kind, id, children, params⟩, writable =>
    holds_node (params.restored writable) kind id children
  termination_by structural node => node

theorem Params.restored : (params : Params) → params.Writable →
    Holds Params.ofJson? params.toJson params
  | ⟨unit, mode, _, inputs, outputs, periodMs, subtree⟩, ⟨finite, writable⟩ =>
    holds_params finite (subtree_restored subtree writable) unit mode inputs outputs periodMs
  termination_by structural params => params

theorem subtree_restored : (subtree : Option Subtree) → subtreeWritable subtree →
    Holds (fun room => optional? (Subtree.ofJson? room)) (subtreeToJson subtree) subtree
  | none, _ => fun _ _ => rfl
  | some subtree, writable => holds_some (subtree.restored writable)
  termination_by structural subtree => subtree

theorem Subtree.restored : (subtree : Subtree) → subtree.Writable →
    Holds Subtree.ofJson? subtree.toJson subtree
  | .inline graph, writable => holds_inline (graph.restored writable)
  | .named name, _ => holds_named name
  termination_by structural subtree => subtree

end

/-- A graph that can be written is read from what was written and from all that edits make of it,
wherever there is room for what was written. -/
theorem graph_restored {graph : Graph} (writable : graph.Writable) {json : Json}
    (edits : Relation.ReflTransGen (Edit .graph) graph.toJson json) {room : Nat}
    (deep : graph.toJson.depth ≤ room) : Graph.ofJson? room json = some graph :=
  read?_of_edits edits (graph.restored writable room deep)

def burrow : Graph :=
  { nodes := [⟨"FunctionNode", "dig", [], { subtree := some (.inline {}) }⟩] }

def Json.burrow : Json :=
  ofFields [("note", ofString "empty"), ("nodes", array [ofFields [
    ("kind", ofString "FunctionNode"), ("id", ofString "dig"), ("children", array []),
    ("params", ofFields [("unit", null), ("mode", null), ("weights", array []),
      ("inputs", array []), ("outputs", array []), ("period_ms", null),
      ("subtree", ofFields [("Inline", ofFields [("nodes", array [])])])])]])]

theorem burrow_restored : Graph.ofJson? documentRoom Json.burrow = some burrow := by
  have inner : Edit .graph (Graph.toJson {}) (ofFields [("nodes", array [])]) :=
    @Edit.drop .graph ⟨"variables", some (array []), some .declarations⟩ (array []) []
      [(some "nodes", array [])] (by simp [Shape.fields]) rfl
  have outer : Edit .graph burrow.toJson
      (.object [(some "nodes", array (nodesToJson burrow.nodes))]) :=
    @Edit.drop .graph ⟨"variables", some (array []), some .declarations⟩ (array []) [] _
      (by simp [Shape.fields]) rfl
  have params : Edit .params (Params.toJson { subtree := some (.inline {}) }) _ :=
    @Edit.field .params .subtree ⟨"subtree", some null, some .subtree⟩ [(some "unit", null),
      (some "mode", null), (some "weights", array []), (some "inputs", array []),
      (some "outputs", array []), (some "period_ms", null)] [] _ _ (by simp [Shape.fields]) rfl
      (.inline inner)
  have node : Edit .node
      (Descriptor.toJson ⟨"FunctionNode", "dig", [], { subtree := some (.inline {}) }⟩) _ :=
    @Edit.field .node .params ⟨"params", some (Params.toJson {}), some .params⟩
      [(some "kind", ofString "FunctionNode"), (some "id", ofString "dig"),
        (some "children", array [])] [] _ _ (by simp [Shape.fields]) rfl params
  have nodes : Edit .nodes (.array (nodesToJson burrow.nodes)) _ :=
    @Edit.item .nodes .node [] [] _ _ rfl node
  have graph : Edit .graph (.object [(some "nodes", array (nodesToJson burrow.nodes))]) _ :=
    @Edit.field .graph .nodes ⟨"nodes", some (array []), some .nodes⟩ [] [] _ _
      (by simp [Shape.fields]) rfl nodes
  have noted : Edit .graph _ Json.burrow :=
    @Edit.extend .graph "note" (ofString "empty") [] _ (by simp [Shape.fields])
      (by simp [Shape.fields])
  exact graph_restored (by simp [burrow, Graph.Writable, nodesWritable, Descriptor.Writable,
    Params.Writable, subtreeWritable, Subtree.Writable]) (.head outer (.head graph (.single noted)))
    (by decide)

end ReactiveTree
