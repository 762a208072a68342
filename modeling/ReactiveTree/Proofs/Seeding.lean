import ReactiveTree.Proofs.WellFormed

/-!
The variables that a build writes. A variable keeps the kind of its first write, so declarations can
be written one after the other exactly if each has a literal of its kind and no two of one name
differ in kind.
-/

namespace ReactiveTree

namespace Blackboard

def kind? (board : Blackboard) (name : String) : Option ValueKind :=
  (board.find? name).map Value.kind

def Knows (board : Blackboard) (name : String) (kind : ValueKind) : Prop :=
  board.kind? name = some kind

theorem find?_put (board : Blackboard) (name other : String) (value : Value) :
    (board.put name value).find? other = if other = name then some value else board.find? other := by
  -- the list keeps its order: only an entry of the name itself changes
  have replaced (entries : List (String × Value)) :
      (entries.map fun entry => if entry.1 = name then (name, value) else entry).lookup other =
        if other = name then (entries.lookup name).map fun _ => value
        else entries.lookup other := by
    induction entries with
    | nil => simp
    | cons entry rest ih =>
      obtain ⟨key, old⟩ := entry
      by_cases here : key = name
      · by_cases same : other = name
        · simp [here, same]
        · have apart : (other == name) = false := by simpa using same
          simp [List.lookup_cons, here, same, apart, ih]
      · by_cases same : other = name
        · subst same
          have apart : (other == key) = false := by simpa using fun h => here h.symm
          simp [List.lookup_cons, here, apart, ih]
        · simp [List.lookup_cons, here, same, ih]
  unfold put
  split
  · rename_i there
    obtain ⟨old, found⟩ := Option.isSome_iff_exists.mp there
    unfold find? at found ⊢
    rw [replaced, found]
    rfl
  · rename_i absent
    have missing : board.find? name = none := by simpa [contains] using absent
    unfold find? at missing ⊢
    rw [List.lookup_append]
    by_cases same : other = name
    · simp [same, missing]
    · have apart : (other == name) = false := by simpa using same
      simp [List.lookup_cons, same, apart]

theorem kind?_put (board : Blackboard) (name other : String) (value : Value) :
    (board.put name value).kind? other =
      if other = name then some value.kind else board.kind? other := by
  unfold kind?
  rw [find?_put]
  split <;> rfl

theorem seed?_eq_some {board after : Blackboard} {name literal : String} {kind : ValueKind} :
    board.seed? name kind literal = some after ↔
      ∃ content, Literal.parse? kind literal = some content ∧
        (∀ old, board.kind? name = some old → old = kind) ∧
        after = board.put name ⟨kind, content⟩ := by
  unfold seed?
  cases parsed : Literal.parse? kind literal with
  | none => simp
  | some content =>
    unfold write kind?
    cases found : board.find? name with
    | none => simp [Except.toOption, eq_comm]
    | some old =>
      by_cases same : old.kind = kind
      · simp [same, Except.toOption, eq_comm]
      · simp [same, Except.toOption]

end Blackboard

namespace Build

theorem declare_eq_ok {board after : Blackboard} {declared : Declaration} :
    declare board declared = .ok after ↔
      declared.value = none ∧ after = board ∨
      ∃ kind text content, declared.kind = some kind ∧ declared.value = some text ∧
        Literal.parse? kind text = some content ∧
        (∀ old, board.kind? declared.name = some old → old = kind) ∧
        after = board.put declared.name ⟨kind, content⟩ := by
  unfold declare
  split
  · rename_i kind text kinded valued
    simp only [kinded, valued]
    cases written : board.seed? declared.name kind text with
    | none =>
      constructor
      · nofun
      · rintro (⟨absent, _⟩ | ⟨_, _, content, ⟨⟩, ⟨⟩, parsed, fits, _⟩)
        · cases absent
        · have seeded := Blackboard.seed?_eq_some.mpr ⟨content, parsed, fits, rfl⟩
          exact nomatch written.symm.trans seeded
    | some next =>
      obtain ⟨content, parsed, fits, made⟩ := Blackboard.seed?_eq_some.mp written
      constructor
      · rintro ⟨⟩
        exact .inr ⟨kind, text, content, rfl, rfl, parsed, fits, made⟩
      · rintro (⟨absent, _⟩ | ⟨_, _, content, ⟨⟩, ⟨⟩, parsed, fits, rfl⟩)
        · cases absent
        · have seeded := Blackboard.seed?_eq_some.mpr ⟨content, parsed, fits, rfl⟩
          exact congrArg _ (Option.some.inj (written.symm.trans seeded))
  · rename_i text kindless valued
    simp [kindless, valued]
  · rename_i valueless
    simp [valueless, eq_comm]

theorem declareAll_cons_eq_ok {board after : Blackboard} {first : Declaration}
    {declarations : List Declaration} :
    declareAll board (first :: declarations) = .ok after ↔
      ∃ next, declare board first = .ok next ∧ declareAll next declarations = .ok after := by
  rw [declareAll]
  cases declare board first <;> simp

theorem declareAll_sound {board after : Blackboard} {declarations : List Declaration}
    (written : declareAll board declarations = .ok after) :
    (∀ declared ∈ declarations, Declares declared) ∧
      (∀ name kind, board.Knows name kind → after.Knows name kind) ∧
      ∀ declared ∈ declarations, ∀ kind, declared.kind = some kind → declared.value.isSome →
        after.Knows declared.name kind := by
  induction declarations generalizing board with
  | nil =>
    cases written
    exact ⟨nofun, fun _ _ known => known, nofun⟩
  | cons first rest ih =>
    obtain ⟨next, step, written⟩ := declareAll_cons_eq_ok.mp written
    obtain ⟨declares, keeps, seeds⟩ := ih written
    rcases declare_eq_ok.mp step with ⟨valueless, rfl⟩ | ⟨kind, text, content, kinded, valued,
      parsed, fits, rfl⟩
    · refine ⟨List.forall_mem_cons.mpr ⟨?_, declares⟩, keeps,
        List.forall_mem_cons.mpr ⟨?_, seeds⟩⟩
      · intro text valued
        exact nomatch valueless.symm.trans valued
      · intro kind _ valued
        rw [valueless] at valued
        cases valued
    · refine ⟨List.forall_mem_cons.mpr ⟨?_, declares⟩, ?_, List.forall_mem_cons.mpr ⟨?_, seeds⟩⟩
      · intro text' valued'
        obtain rfl := Option.some.inj (valued.symm.trans valued')
        exact ⟨kind, kinded, by rw [parsed]; rfl⟩
      · intro name old known
        apply keeps
        rw [Blackboard.Knows, Blackboard.kind?_put]
        split
        · rename_i same
          exact congrArg some (fits old (same ▸ known)).symm
        · exact known
      · intro kind' kinded' _
        obtain rfl := Option.some.inj (kinded.symm.trans kinded')
        apply keeps
        rw [Blackboard.Knows, Blackboard.kind?_put, if_pos rfl]

/-- Declarations that agree on the kinds of their variables, with each other and with the board, can
all be written. -/
theorem declareAll_complete {knows : String → ValueKind → Prop}
    (unique : ∀ name kind kind', knows name kind → knows name kind' → kind = kind')
    {declarations : List Declaration} (declares : ∀ declared ∈ declarations, Declares declared)
    (seeds : ∀ declared ∈ declarations, ∀ kind, declared.kind = some kind →
      declared.value.isSome → knows declared.name kind)
    {board : Blackboard} (known : ∀ name kind, board.Knows name kind → knows name kind) :
    ∃ after, declareAll board declarations = .ok after ∧
      ∀ name kind, after.Knows name kind → knows name kind := by
  induction declarations generalizing board with
  | nil => exact ⟨board, rfl, known⟩
  | cons first rest ih =>
    obtain ⟨declaresFirst, declares⟩ := List.forall_mem_cons.mp declares
    obtain ⟨seedsFirst, seeds⟩ := List.forall_mem_cons.mp seeds
    cases valued : first.value with
    | none =>
      obtain ⟨after, written, agrees⟩ := ih declares seeds known
      refine ⟨after, ?_, agrees⟩
      exact declareAll_cons_eq_ok.mpr ⟨board, declare_eq_ok.mpr (.inl ⟨valued, rfl⟩), written⟩
    | some text =>
      obtain ⟨kind, kinded, parses⟩ := declaresFirst text valued
      obtain ⟨content, parsed⟩ := Option.isSome_iff_exists.mp parses
      have agrees : knows first.name kind := seedsFirst kind kinded (by rw [valued]; rfl)
      -- a variable that is there already was declared with a kind that is known too
      have fits : ∀ old, board.kind? first.name = some old → old = kind := by
        intro old there
        exact unique first.name old kind (known first.name old there) agrees
      have grown : ∀ name other, (board.put first.name ⟨kind, content⟩).Knows name other →
          knows name other := by
        intro name other there
        rw [Blackboard.Knows, Blackboard.kind?_put] at there
        split at there
        · rename_i same
          obtain rfl := Option.some.inj there
          exact same ▸ agrees
        · exact known name other there
      obtain ⟨after, written, agrees⟩ := ih declares seeds grown
      refine ⟨after, ?_, agrees⟩
      have step : declare board first = .ok (board.put first.name ⟨kind, content⟩) :=
        declare_eq_ok.mpr (.inr ⟨kind, text, content, kinded, valued, parsed, fits, rfl⟩)
      exact declareAll_cons_eq_ok.mpr ⟨_, step, written⟩

end Build

end ReactiveTree
