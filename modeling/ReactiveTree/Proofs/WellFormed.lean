import Mathlib.Data.List.Basic
import Mathlib.Logic.Relation
import ReactiveTree.Proofs.Construction

/-!
Graphs that describe a tree. A body is the graph itself or the graph of a function node, and what is
asked of a body is asked of the nodes that are reached from its root and of the variables it
declares; descriptors that nothing reaches are free.
-/

namespace ReactiveTree.Build

variable {H : Host}

/-- A graph with the names of the library graphs that are open where it is expanded. -/
structure Body where
  graph : Graph
  opened : List String

/-- The ids that links lead to from the root descriptor on. -/
inductive Reached (graph : Graph) : String → Prop where
  | root {root : Descriptor} {id : String} (rooted : graph.root? = some root)
      (listed : id ∈ root.children) : Reached graph id
  | child {parent id : String} {node : Descriptor} (reached : Reached graph parent)
      (found : graph.find? parent = some node) (listed : id ∈ node.children) : Reached graph id

/-- A link leads to an id from a position among the children of a reached node, or of the root. -/
inductive Linked (graph : Graph) : Option String → Nat → String → Prop where
  | root {root : Descriptor} {position : Nat} {id : String} (rooted : graph.root? = some root)
      (listed : root.children[position]? = some id) : Linked graph none position id
  | child {parent id : String} {node : Descriptor} {position : Nat} (reached : Reached graph parent)
      (found : graph.find? parent = some node) (listed : node.children[position]? = some id) :
      Linked graph (some parent) position id

/-- The node names a unit of the table, and the unit can be made from the arguments. -/
def Binds {Unit : Type} (table : String → Option (UnitType Unit)) (params : Params) : Prop :=
  ∃ name unitType unit, params.unit = some name ∧ table name = some unitType ∧
    unitType.arity .input = params.inputs.length ∧
    unitType.arity .output = params.outputs.length ∧
    unitType.create (.ofArguments unitType.slots params.inputs params.outputs) = .ok unit

/-- The weights of a choice among so many children. -/
structure Weighs (weights : List Single) (children : Nat) : Prop where
  counted : weights.length = children
  valid : ∀ weight ∈ weights, weight.isFinite ∧ ¬ weight.less 0
  positive : ¬ (Weights.total weights).atMost 0

/-- The descriptor has what its kind asks for. -/
structure Fits (sources : Sources H) (opened : List String) (node : Descriptor) (kind : NodeKind) :
    Prop where
  counted : kind.childCount.accepts node.children.length
  acts : kind = .actionNode → Binds sources.registry.action? node.params
  polls : kind = .conditionNode ∨ kind = .loopConditionNode →
    Binds sources.registry.condition? node.params
  repeats : kind = .loopConditionNode →
    ∃ text mode, node.params.mode = some text ∧ PollMode.parse? text = some mode
  chooses : kind = .weightedRandomSelector → Weighs node.params.weights node.children.length
  expands : kind = .functionNode →
    ∃ body names, Opens sources.library opened node.params.subtree body names

/-- The variable with its initial value, if it has one, can be written to an empty board. -/
def Declares (declared : Declaration) : Prop :=
  ∀ text, declared.value = some text →
    ∃ kind, declared.kind = some kind ∧ (Literal.parse? kind text).isSome

/-- The body is a tree of well-described nodes under its root descriptor. -/
structure WellFormedBody (sources : Sources H) (body : Body) : Prop where
  rooted : ∃ root child, body.graph.root? = some root ∧ root.children = [child]
  resolves : ∀ id, Reached body.graph id → ∃ node, body.graph.find? id = some node
  unshared : ∀ id source source' position position', Linked body.graph source position id →
    Linked body.graph source' position' id → source = source' ∧ position = position'
  rootless : ∀ root source position, body.graph.root? = some root →
    ¬ Linked body.graph source position root.id
  fits : ∀ id node, Reached body.graph id → body.graph.find? id = some node →
    ∃ kind, NodeKind.parse? node.kind = some kind ∧ Fits sources body.opened node kind
  declares : ∀ declared ∈ body.graph.declarations, Declares declared

/-- A reached function node of the body stands for the inner body. -/
def Enters (library : Library) (body inner : Body) : Prop :=
  ∃ id node, Reached body.graph id ∧ body.graph.find? id = some node ∧
    NodeKind.parse? node.kind = some .functionNode ∧
    Opens library body.opened node.params.subtree inner.graph inner.opened

/-- The bodies that are expanded below a body, itself included. -/
def Expanded (library : Library) : Body → Body → Prop :=
  Relation.ReflTransGen (Enters library)

def Seeds (body : Body) (name : String) (kind : ValueKind) : Prop :=
  ∃ declared ∈ body.graph.declarations,
    declared.name = name ∧ declared.kind = some kind ∧ declared.value.isSome

/-- The body and all that is expanded in it is well-formed, and the kinds of the variables are
those of `knows`. -/
def Accepted (sources : Sources H) (knows : String → ValueKind → Prop) (body : Body) : Prop :=
  ∀ inner, Expanded sources.library body inner → WellFormedBody sources inner ∧
    ∀ name kind, Seeds inner name kind → knows name kind

/-- Every expanded body is well-formed, and they agree on the kinds of the variables. -/
structure WellFormed (sources : Sources H) (graph : Graph) : Prop where
  bodies : ∀ body, Expanded sources.library ⟨graph, []⟩ body → WellFormedBody sources body
  agree : ∀ body body' name kind kind', Expanded sources.library ⟨graph, []⟩ body →
    Expanded sources.library ⟨graph, []⟩ body' → Seeds body name kind → Seeds body' name kind' →
    kind = kind'

section Descriptors

variable {sources : Sources H} {label : Label} {params : Params}

theorem bindUnit_eq_ok {Unit : Type} {key name : String} {unitType : UnitType Unit} {unit : Unit} :
    bindUnit key name unitType params = .ok unit ↔
      unitType.arity .input = params.inputs.length ∧
      unitType.arity .output = params.outputs.length ∧
      unitType.create (.ofArguments unitType.slots params.inputs params.outputs) = .ok unit := by
  unfold bindUnit
  by_cases inputs : unitType.arity .input = params.inputs.length
  · by_cases outputs : unitType.arity .output = params.outputs.length
    · simp only [inputs, outputs, if_true, true_and]
      cases unitType.create (.ofArguments unitType.slots params.inputs params.outputs) <;> simp
    · simp [inputs, outputs]
  · simp [inputs]

theorem lookup_binds {Unit : Type} {table : String → Option (UnitType Unit)} (key : String)
    {result : Except BuildError Unit}
    (missing : params.unit = none → ∃ error, result = .error error)
    (unknown : ∀ name, params.unit = some name → table name = none → ∃ error, result = .error error)
    (known : ∀ name unitType, params.unit = some name → table name = some unitType →
      result = bindUnit key name unitType params) :
    (∃ unit, result = .ok unit) ↔ Binds table params := by
  constructor
  · rintro ⟨unit, rfl⟩
    cases named : params.unit with
    | none => exact nomatch missing named
    | some name =>
      cases found : table name with
      | none => exact nomatch unknown name named found
      | some unitType =>
        have bound := (known name unitType named found).symm
        exact ⟨name, unitType, unit, named, found, bindUnit_eq_ok.mp bound⟩
  · rintro ⟨name, unitType, unit, named, found, bound⟩
    exact ⟨unit, (known name unitType named found).trans (bindUnit_eq_ok.mpr bound)⟩

theorem conditionUnit_binds {registry : Registry H} {key : String} :
    (∃ unit, conditionUnit registry key params = .ok unit) ↔ Binds registry.condition? params := by
  apply lookup_binds key
  · intro missing
    exact ⟨.missingParameter key "unit", by simp only [conditionUnit, missing]⟩
  · intro name named unknown
    exact ⟨.unknownUnit key .condition name, by simp only [conditionUnit, named, unknown]⟩
  · intro name unitType named found
    simp only [conditionUnit, named, found]

theorem actionUnit_binds {registry : Registry H} {key : String} :
    (∃ unit, actionUnit registry key params = .ok unit) ↔ Binds registry.action? params := by
  apply lookup_binds key
  · intro missing
    exact ⟨.missingParameter key "unit", by simp only [actionUnit, missing]⟩
  · intro name named unknown
    exact ⟨.unknownUnit key .action name, by simp only [actionUnit, named, unknown]⟩
  · intro name unitType named found
    simp only [actionUnit, named, found]

theorem pollMode_parses {key : String} :
    (∃ mode, pollMode key params = .ok mode) ↔
      ∃ text mode, params.mode = some text ∧ PollMode.parse? text = some mode := by
  unfold pollMode
  constructor
  · rintro ⟨mode, parsed⟩
    split at parsed
    · cases parsed
    · rename_i text written
      split at parsed
      · cases parsed
      · rename_i mode known
        exact ⟨text, mode, written, known⟩
  · rintro ⟨text, mode, written, known⟩
    exact ⟨mode, by simp only [written, known]⟩

theorem bounds_weighs {weights : List Single} {children : Nat} :
    (∃ bounds, Weights.bounds weights children = .ok bounds) ↔ Weighs weights children := by
  constructor
  · rintro ⟨bounds, made⟩
    obtain ⟨counted, valid, positive, _⟩ := Weights.bounds_eq_ok.mp made
    exact ⟨counted, Weights.invalid?_eq_none.mp valid, by simp [positive]⟩
  · rintro ⟨counted, valid, positive⟩
    exact ⟨_, Weights.bounds_eq_ok.mpr
      ⟨counted, Weights.invalid?_eq_none.mpr valid, by simpa using positive, rfl⟩⟩

/-- A node of a kind other than a function node can be made over its children exactly if its
descriptor fits. -/
theorem exists_shapes {opened : List String} {node : Descriptor} {kind : NodeKind}
    {children : List (Tree H)} (same : children.length = node.children.length)
    (counted : kind.childCount.accepts node.children.length) (plain : kind ≠ .functionNode) :
    (∃ tree, Shapes sources label node.params kind children tree) ↔
      Fits sources opened node kind := by
  constructor
  · rintro ⟨tree, shapes⟩
    cases shapes with
    | gate child polled bound =>
      exact ⟨counted, nofun, fun _ => conditionUnit_binds.mp ⟨_, bound⟩,
        fun _ => pollMode_parses.mp ⟨_, polled⟩, nofun, nofun⟩
    | weighted weighed =>
      have weighs := bounds_weighs.mp ⟨_, weighed⟩
      rw [same] at weighs
      exact ⟨counted, nofun, nofun, nofun, fun _ => weighs, nofun⟩
    | condition bound =>
      exact ⟨counted, nofun, fun _ => conditionUnit_binds.mp ⟨_, bound⟩, nofun, nofun, nofun⟩
    | action bound =>
      exact ⟨counted, fun _ => actionUnit_binds.mp ⟨_, bound⟩, nofun, nofun, nofun, nofun⟩
    | _ => exact ⟨counted, nofun, nofun, nofun, nofun, nofun⟩
  · intro fits
    -- the number of children that the kind takes gives the children by name
    rw [← same] at counted
    have none_ (count : kind.childCount = .exactly 0) : children = [] := by
      rw [count] at counted
      exact List.length_eq_zero_iff.mp (of_decide_eq_true counted)
    have one (count : kind.childCount = .exactly 1) : ∃ child, children = [child] := by
      rw [count] at counted
      exact List.length_eq_one_iff.mp (of_decide_eq_true counted)
    have two (count : kind.childCount = .exactly 2) :
        ∃ main background, children = [main, background] := by
      rw [count] at counted
      exact List.length_eq_two.mp (of_decide_eq_true counted)
    cases kind with
    | root =>
      obtain ⟨child, rfl⟩ := one rfl
      exact ⟨_, .root child⟩
    | inverseDecorator =>
      obtain ⟨child, rfl⟩ := one rfl
      exact ⟨_, .inverse child⟩
    | repeater =>
      obtain ⟨child, rfl⟩ := one rfl
      exact ⟨_, .repeater child⟩
    | loop =>
      obtain ⟨child, rfl⟩ := one rfl
      exact ⟨_, .loop child⟩
    | loopConditionNode =>
      obtain ⟨child, rfl⟩ := one rfl
      obtain ⟨mode, polled⟩ := pollMode_parses.mpr (fits.repeats rfl)
      obtain ⟨unit, bound⟩ := conditionUnit_binds.mpr (fits.polls (.inr rfl))
      exact ⟨_, .gate child polled bound⟩
    | selector => exact ⟨_, .selector children⟩
    | sequencer => exact ⟨_, .sequencer children⟩
    | weightedRandomSelector =>
      have weighs := fits.chooses rfl
      rw [← same] at weighs
      obtain ⟨bounds, weighed⟩ := bounds_weighs.mpr weighs
      exact ⟨_, .weighted weighed⟩
    | simpleParallel =>
      obtain ⟨main, background, rfl⟩ := two rfl
      exact ⟨_, .parallel main background⟩
    | conditionNode =>
      cases none_ rfl
      obtain ⟨unit, bound⟩ := conditionUnit_binds.mpr (fits.polls (.inl rfl))
      exact ⟨_, .condition bound⟩
    | actionNode =>
      cases none_ rfl
      obtain ⟨unit, bound⟩ := actionUnit_binds.mpr (fits.acts rfl)
      exact ⟨_, .action bound⟩
    | functionNode => exact absurd rfl plain

end Descriptors

end ReactiveTree.Build
