import ReactiveTree.Rehearsal

/-!
Slots of a unit and the arguments of a node. The slots of both directions stand in one list, so the
place of a slot among those of its own direction is its place in the list less the slots of the other
direction before it. If no two slots of a direction share a name, a name leads to the slot that has
it and from there to the argument in its place.
-/

namespace ReactiveTree

/-- How many of the slots have the direction: the place of a slot that stands behind them. -/
def placeBehind (direction : Direction) (slots : List Slot) : Nat :=
  slots.countP (·.direction = direction)

/-- What a request for an input slot by its own kind makes of the argument. -/
def Argument.Feeds : Argument → (slot : Slot) → Except BindError (Input slot.kind) → Prop
  | .ref target, slot, answer =>
    ∃ input, answer = .ok input ∧ ∀ board, input.read board = board.read slot.kind target
  | .literal text, slot, answer =>
    (∀ content, Literal.parse? slot.kind text = some content →
      ∃ input, answer = .ok input ∧ ∀ board, input.read board = .ok content) ∧
    (Literal.parse? slot.kind text = none →
      answer = .error (.invalidLiteral slot.name text slot.kind))

/-- Every slot has the argument in its place, and nothing else is bound. -/
structure Bindings.Positional (bindings : Bindings) (slots : List Slot) (inputs : List Argument)
    (outputs : List String) : Prop where
  input : ∀ before slot after, slots = before ++ slot :: after → slot.direction = .input →
    ∃ argument, inputs[placeBehind .input before]? = some argument ∧
      argument.Feeds slot (bindings.input slot.name slot.kind)
  output : ∀ before slot after, slots = before ++ slot :: after → slot.direction = .output →
    ∃ target, outputs[placeBehind .output before]? = some target ∧
      bindings.output slot.name slot.kind = .ok ⟨target⟩
  /-- Another kind is refused whatever the argument is. -/
  inputKind : ∀ slot ∈ slots, slot.direction = .input → ∀ kind, kind ≠ slot.kind →
    bindings.input slot.name kind = .error (.kindMismatch slot.name slot.kind kind)
  outputKind : ∀ slot ∈ slots, slot.direction = .output → ∀ kind, kind ≠ slot.kind →
    bindings.output slot.name kind = .error (.kindMismatch slot.name slot.kind kind)
  inputUnknown : ∀ name kind asked direction,
    bindings.input name kind = .error (.unknownSlot asked direction) ↔
      asked = name ∧ direction = .input ∧
        ∀ slot ∈ slots, slot.direction = .input → slot.name ≠ name
  outputUnknown : ∀ name kind asked direction,
    bindings.output name kind = .error (.unknownSlot asked direction) ↔
      asked = name ∧ direction = .output ∧
        ∀ slot ∈ slots, slot.direction = .output → slot.name ≠ name

theorem length_slotsOf (direction : Direction) (slots : List Slot) :
    (slotsOf direction slots).length = placeBehind direction slots :=
  List.countP_eq_length_filter.symm

section Lookup

variable {α : Type} {direction : Direction} {slots : List Slot} {given : List α}

theorem find?_zip_slotsOf {before after : List Slot} {slot : Slot}
    (distinct : slots.Pairwise fun a b => a.direction = b.direction → a.name ≠ b.name)
    (split : slots = before ++ slot :: after) (directed : slot.direction = direction)
    (arity : given.length = placeBehind direction slots) :
    ∃ value, given[placeBehind direction before]? = some value ∧
      ((slotsOf direction slots).zip given).find? (·.1.name = slot.name) = some (slot, value) := by
  subst split
  have own : slotsOf direction (before ++ slot :: after) =
      slotsOf direction before ++ slot :: slotsOf direction after := by
    simp [slotsOf, directed]
  have inside : placeBehind direction before < given.length := by
    rw [arity, placeBehind, placeBehind, List.countP_append,
      List.countP_cons_of_pos (by simp [directed])]
    omega
  -- the arguments are cut where the slots are, so that the two halves are paired apart
  obtain ⟨front, value, back, rfl, place⟩ : ∃ front value back,
      given = front ++ value :: back ∧ front.length = placeBehind direction before := by
    refine ⟨given.take (placeBehind direction before), given[placeBehind direction before],
      given.drop (placeBehind direction before + 1), ?_, ?_⟩
    · rw [← List.drop_eq_getElem_cons inside, List.take_append_drop]
    · rw [List.length_take, Nat.min_eq_left (Nat.le_of_lt inside)]
  have passed : ((slotsOf direction before).zip front).find? (·.1.name = slot.name) = none := by
    rw [List.find?_eq_none]
    rintro ⟨earlier, argument⟩ paired
    obtain ⟨listed, same⟩ := List.mem_filter.mp (List.of_mem_zip paired).1
    have apart := (List.pairwise_append.mp distinct).2.2 earlier listed slot List.mem_cons_self
    simpa using apart ((of_decide_eq_true same).trans directed.symm)
  refine ⟨value, by simp [← place], ?_⟩
  rw [own, List.zip_append ((length_slotsOf _ _).trans place.symm), List.find?_append, passed]
  simp

theorem find?_zip_slotsOf_eq_none {name : String}
    (arity : given.length = placeBehind direction slots) :
    ((slotsOf direction slots).zip given).find? (·.1.name = name) = none ↔
      ∀ slot ∈ slots, slot.direction = direction → slot.name ≠ name := by
  have paired : ((slotsOf direction slots).zip given).map Prod.fst = slotsOf direction slots :=
    List.map_fst_zip (Nat.le_of_eq ((length_slotsOf _ _).trans arity.symm))
  have all := List.forall_mem_map (f := Prod.fst) (l := (slotsOf direction slots).zip given)
    (P := fun slot => slot.name ≠ name)
  rw [paired] at all
  simpa [List.find?_eq_none, slotsOf] using all.symm

end Lookup

namespace Bindings

variable {bindings : Bindings} {name : String} {slot : Slot}

theorem feeds_of_find {argument : Argument}
    (found : bindings.inputs.find? (·.1.name = slot.name) = some (slot, argument)) :
    argument.Feeds slot (bindings.input slot.name slot.kind) := by
  unfold input
  rw [found]
  cases argument with
  | ref target => exact ⟨.ref target, by simp, fun _ => rfl⟩
  | literal text =>
    constructor
    · intro content parsed
      exact ⟨.constant content, by simp [parsed], fun _ => rfl⟩
    · intro unparsed
      simp [unparsed]

theorem input_mismatch {argument : Argument} {kind : ValueKind}
    (found : bindings.inputs.find? (·.1.name = slot.name) = some (slot, argument))
    (other : kind ≠ slot.kind) :
    bindings.input slot.name kind = .error (.kindMismatch slot.name slot.kind kind) := by
  simp [input, found, other.symm]

theorem output_mismatch {target : String} {kind : ValueKind}
    (found : bindings.outputs.find? (·.1.name = slot.name) = some (slot, target))
    (other : kind ≠ slot.kind) :
    bindings.output slot.name kind = .error (.kindMismatch slot.name slot.kind kind) := by
  simp [output, found, other.symm]

theorem input_unknown {kind : ValueKind} {asked : String} {direction : Direction} :
    bindings.input name kind = .error (.unknownSlot asked direction) ↔
      asked = name ∧ direction = .input ∧ bindings.inputs.find? (·.1.name = name) = none := by
  unfold input
  cases bindings.inputs.find? (·.1.name = name) with
  | none => simp [eq_comm]
  | some found =>
    -- a slot of this name is there, so the answer is of another sort
    obtain ⟨slot, argument⟩ := found
    by_cases kinds : slot.kind = kind
    · cases argument with
      | ref target => simp [kinds]
      | literal text => cases parsed : Literal.parse? kind text <;> simp [kinds, parsed]
    · simp [kinds]

theorem output_unknown {kind : ValueKind} {asked : String} {direction : Direction} :
    bindings.output name kind = .error (.unknownSlot asked direction) ↔
      asked = name ∧ direction = .output ∧ bindings.outputs.find? (·.1.name = name) = none := by
  unfold output
  cases bindings.outputs.find? (·.1.name = name) with
  | none => simp [eq_comm]
  | some found =>
    obtain ⟨slot, target⟩ := found
    by_cases kinds : slot.kind = kind <;> simp [kinds]

end Bindings

/-- Where the numbers of arguments are those that a unit declares, each of its slots is bound to the
argument in its place. -/
theorem slots_bind_by_position {Unit : Type} (unitType : UnitType Unit) (inputs : List Argument)
    (outputs : List String)
    (distinct : unitType.slots.Pairwise fun a b => a.direction = b.direction → a.name ≠ b.name)
    (inputArity : unitType.arity .input = inputs.length)
    (outputArity : unitType.arity .output = outputs.length) :
    (Bindings.ofArguments unitType.slots inputs outputs).Positional unitType.slots inputs
      outputs := by
  have inputArity : inputs.length = placeBehind .input unitType.slots :=
    inputArity.symm.trans (length_slotsOf _ _)
  have outputArity : outputs.length = placeBehind .output unitType.slots :=
    outputArity.symm.trans (length_slotsOf _ _)
  constructor
  · intro before slot after split directed
    obtain ⟨argument, placed, found⟩ := find?_zip_slotsOf distinct split directed inputArity
    exact ⟨argument, placed, Bindings.feeds_of_find found⟩
  · intro before slot after split directed
    obtain ⟨target, placed, found⟩ := find?_zip_slotsOf distinct split directed outputArity
    exact ⟨target, placed, by simp [Bindings.output, Bindings.ofArguments, found]⟩
  · intro slot listed directed kind other
    obtain ⟨before, after, split⟩ := List.append_of_mem listed
    obtain ⟨argument, _, found⟩ := find?_zip_slotsOf distinct split directed inputArity
    exact Bindings.input_mismatch found other
  · intro slot listed directed kind other
    obtain ⟨before, after, split⟩ := List.append_of_mem listed
    obtain ⟨target, _, found⟩ := find?_zip_slotsOf distinct split directed outputArity
    exact Bindings.output_mismatch found other
  · intro name kind asked direction
    rw [Bindings.input_unknown, ← find?_zip_slotsOf_eq_none inputArity]
    rfl
  · intro name kind asked direction
    rw [Bindings.output_unknown, ← find?_zip_slotsOf_eq_none outputArity]
    rfl

/-- A unit whose inputs and outputs take turns, with a literal that is no number of its slot. -/
theorem mix_binds_by_position : ∃ mix, Rehearsal.registry.action? "Mix" = some mix ∧
    (mix.slots.Pairwise fun a b => a.direction = b.direction → a.name ≠ b.name) ∧
    mix.arity .input = 2 ∧ mix.arity .output = 2 ∧
    (Bindings.ofArguments mix.slots [.literal "few", .ref "guest"] ["line", "copies"]).Positional
      mix.slots [.literal "few", .ref "guest"] ["line", "copies"] :=
  ⟨_, rfl, by decide, rfl, rfl, slots_bind_by_position _ _ _ (by decide) rfl rfl⟩

end ReactiveTree
