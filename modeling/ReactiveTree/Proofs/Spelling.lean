import Mathlib.Data.List.TakeWhile
import ReactiveTree.Value

/-!
How a vector is written. Its numbers stand between commas, and no bracket is part of a number. So
what is left of a literal after opening brackets in front and closing brackets behind were dropped
tells how many there were, and a vector is read whatever their numbers are: also if they do not
match.
-/

namespace ReactiveTree

/-! ### Characters of a number -/

namespace Text

def InNumber (c : Char) : Prop :=
  isDecimalDigit c ∨ c.toLower ∈ "+-.aefinty".toList

instance (c : Char) : Decidable (InNumber c) :=
  inferInstanceAs (Decidable (_ ∨ _))

theorem inNumber_of_natural? {text : List Char} {n : Nat} (read : natural? 10 text = some n) :
    ∀ c ∈ text, InNumber c := by
  intro c listed
  unfold natural? at read
  split at read
  · nomatch read
  · split at read
    · rename_i digits
      exact .inl (List.all_eq_true.mp digits c listed)
    · nomatch read

theorem inNumber_of_sign {text : List Char} (behind : ∀ c ∈ (sign text).2, InNumber c) :
    ∀ c ∈ text, InNumber c := by
  unfold sign at behind
  split at behind
  · exact List.forall_mem_cons.mpr ⟨.inr (by decide), behind⟩
  · exact List.forall_mem_cons.mpr ⟨.inr (by decide), behind⟩
  · exact behind

theorem inNumber_of_integer? {text : List Char} {n : Int} (read : integer? text = some n) :
    ∀ c ∈ text, InNumber c := by
  cases digits : natural? 10 (sign text).2 with
  | none => simp [integer?, digits] at read
  | some value => exact inNumber_of_sign (inNumber_of_natural? digits)

theorem inNumber_of_lower {text word : List Char} (same : lower text = word)
    (letters : word ⊆ "+-.aefinty".toList) : ∀ c ∈ text, InNumber c := by
  intro c listed
  exact .inr (letters (same ▸ List.mem_map_of_mem listed))

theorem inNumber_of_digits (text : List Char)
    (behind : ∀ c ∈ text.dropWhile isDecimalDigit, InNumber c) : ∀ c ∈ text, InNumber c := by
  rw [← List.takeWhile_append_dropWhile (p := isDecimalDigit) (l := text), List.forall_mem_append]
  exact ⟨fun c listed => .inl (List.mem_takeWhile_imp listed), behind⟩

end Text

open Text

theorem Decimal.inNumber_of_exponent {text : List Char} {plain d : Decimal}
    {raised : Int → Decimal}
    (read : (match text with
      | [] => some plain
      | mark :: rest =>
        if mark = 'e' ∨ mark = 'E' then (integer? rest).map raised else none) = some d) :
    ∀ c ∈ text, InNumber c := by
  split at read
  · simp
  · split at read
    · rename_i marked
      obtain ⟨_, exponent, _⟩ := Option.map_eq_some_iff.mp read
      refine List.forall_mem_cons.mpr ⟨.inr ?_, inNumber_of_integer? exponent⟩
      rcases marked with rfl | rfl <;> decide
    · nomatch read

theorem Decimal.inNumber_of_unsigned? {negative : Bool} {text : List Char} {d : Decimal}
    (read : unsigned? negative text = some d) : ∀ c ∈ text, InNumber c := by
  apply inNumber_of_digits
  unfold unsigned? at read
  generalize text.dropWhile isDecimalDigit = rest at read ⊢
  dsimp only at read
  split at read <;> split at read
  · nomatch read
  · exact List.forall_mem_cons.mpr
      ⟨.inr (by decide), inNumber_of_digits _ (inNumber_of_exponent read)⟩
  · nomatch read
  · exact inNumber_of_exponent read

theorem Single.inNumber_of_parse? {text : List Char} {x : Single} (read : parse? text = some x) :
    ∀ c ∈ text, InNumber c := by
  apply inNumber_of_sign
  unfold parse? at read
  dsimp only at read
  split at read
  · rename_i word
    rcases word with short | long
    · exact inNumber_of_lower short (by decide)
    · exact inNumber_of_lower long (by decide)
  · split at read
    · rename_i word
      exact inNumber_of_lower word (by decide)
    · obtain ⟨d, decimal, _⟩ := Option.map_eq_some_iff.mp read
      exact Decimal.inNumber_of_unsigned? decimal

/-! ### Texts cut in pieces -/

namespace Text

theorem splitOn_eq {α : Type} [DecidableEq α] (separator : α) (text : List α) :
    splitOn separator text = text.splitOn separator := by
  induction text with
  | nil => rfl
  | cons a rest ih =>
    rw [splitOn, ih, List.splitOn_cons_eq_if_modifyHead]
    by_cases same : a = separator
    · simp [same]
    · cases parts : rest.splitOn separator with
      | nil => exact absurd parts (List.splitOn_ne_nil _ _)
      | cons part others => simp [same]

theorem mapM_eq_some_iff {α β : Type} {read : α → Option β} {items : List α} {results : List β} :
    items.mapM read = some results ↔ items.map read = results.map some := by
  induction items generalizing results with
  | nil => cases results <;> simp
  | cons item rest ih =>
    simp only [List.mapM_cons, Option.bind_eq_bind, Option.bind_eq_some_iff, Option.pure_def,
      Option.some.injEq, ih]
    cases results <;> simp

theorem eq_or_mem_of_mem_intercalate {α : Type} {a separator : α} {parts : List (List α)}
    (listed : a ∈ [separator].intercalate parts) : a = separator ∨ ∃ part ∈ parts, a ∈ part := by
  induction parts with
  | nil => nomatch listed
  | cons part rest ih =>
    cases rest with
    | nil => exact .inr ⟨part, List.mem_cons_self, by simpa using listed⟩
    | cons next rest =>
      rw [List.intercalate_cons_cons, List.mem_append, List.mem_append,
        List.mem_singleton] at listed
      rcases listed with (here | between) | later
      · exact .inr ⟨part, List.mem_cons_self, here⟩
      · exact .inl between
      · obtain same | ⟨other, among, there⟩ := ih later
        · exact .inl same
        · exact .inr ⟨other, List.mem_cons_of_mem _ among, there⟩

theorem mem_or_mem_dropWhile (drop : Char → Bool) (text : List Char) :
    ∀ c ∈ text, drop c ∨ c ∈ text.dropWhile drop := by
  intro c listed
  rw [← List.takeWhile_append_dropWhile (p := drop) (l := text), List.mem_append] at listed
  exact listed.imp_left List.mem_takeWhile_imp

theorem isBlank_or_mem_trim (text : List Char) : ∀ c ∈ text, isBlank c ∨ c ∈ trim text := by
  intro c listed
  rcases mem_or_mem_dropWhile isBlank text c listed with blank | kept
  · exact .inl blank
  · rw [trim, dropTrailing, List.mem_reverse]
    exact mem_or_mem_dropWhile isBlank _ c (List.mem_reverse.mpr kept)

theorem dropWhile_replicate_append {drop : Char → Bool} {c : Char} (dropped : drop c) (count : Nat)
    {text : List Char} (kept : ∀ c ∈ text, ¬ drop c) :
    (List.replicate count c ++ text).dropWhile drop = text := by
  rw [List.dropWhile_append_of_pos, List.dropWhile_eq_self_iff]
  · exact fun filled => kept _ (List.getElem_mem filled)
  · intro other listed
    rw [List.eq_of_mem_replicate listed]
    exact dropped

theorem dropTrailing_append_replicate {drop : Char → Bool} {c : Char} (dropped : drop c)
    (count : Nat) {text : List Char} (kept : ∀ c ∈ text, ¬ drop c) :
    dropTrailing drop (text ++ List.replicate count c) = text := by
  rw [dropTrailing, List.reverse_append, List.reverse_replicate,
    dropWhile_replicate_append dropped, List.reverse_reverse]
  exact fun c listed => kept c (List.mem_reverse.mp listed)

theorem exists_replicate_front (c : Char) (text : List Char) :
    ∃ count, text = List.replicate count c ++ text.dropWhile (· = c) := by
  refine ⟨(text.takeWhile (· = c)).length, ?_⟩
  have front : text.takeWhile (· = c) = List.replicate (text.takeWhile (· = c)).length c := by
    refine List.eq_replicate_iff.mpr ⟨rfl, fun other listed => ?_⟩
    simpa using List.mem_takeWhile_imp listed
  rw [← front, List.takeWhile_append_dropWhile]

theorem exists_replicate_back (c : Char) (text : List Char) :
    ∃ count, text = dropTrailing (· = c) text ++ List.replicate count c := by
  obtain ⟨count, turned⟩ := exists_replicate_front c text.reverse
  refine ⟨count, ?_⟩
  have whole := congrArg List.reverse turned
  rwa [List.reverse_reverse, List.reverse_append, List.reverse_replicate] at whole

end Text

/-! ### Vectors -/

namespace Literal

/-- The numbers stand one behind another, with a comma between each two and any blanks around
each. -/
def Lists (text : List Char) (numbers : List Single) : Prop :=
  ∃ parts, text = [','].intercalate parts ∧ (∀ part ∈ parts, ',' ∉ part) ∧
    (parts.map fun part => Single.parse? (trim part)) = numbers.map some

/-- So many brackets stand in front of the numbers and so many behind them, with any blanks outside
of these. -/
def Bracketed (opening closing : Nat) (text : String) (numbers : List Single) : Prop :=
  ∃ inner, trim text.toList =
      List.replicate opening '(' ++ inner ++ List.replicate closing ')' ∧ Lists inner numbers

/-- The numbers stand alone or in one pair of brackets. -/
def Regular (text : String) (numbers : List Single) : Prop :=
  Bracketed 0 0 text numbers ∨ Bracketed 1 1 text numbers

variable {inner : List Char} {text : String} {opening closing : Nat} {numbers : List Single}

theorem inNumber_of_part {part : List Char} {number : Single}
    (read : Single.parse? (trim part) = some number) : ∀ c ∈ part, isBlank c ∨ InNumber c :=
  fun c listed => (isBlank_or_mem_trim part c listed).imp_right (Single.inNumber_of_parse? read c)

theorem exists_number {parts : List (List Char)} {read : List Char → Option Single}
    (all : parts.map read = numbers.map some) {part : List Char} (among : part ∈ parts) :
    ∃ number, read part = some number := by
  have listed := List.mem_map_of_mem (f := read) among
  rw [all] at listed
  obtain ⟨number, _, same⟩ := List.mem_map.mp listed
  exact ⟨number, same.symm⟩

theorem Lists.bare (lists : Lists inner numbers) : '(' ∉ inner ∧ ')' ∉ inner := by
  obtain ⟨parts, rfl, _, read⟩ := lists
  have characters : ∀ c ∈ [','].intercalate parts, c = ',' ∨ isBlank c ∨ InNumber c := by
    intro c listed
    refine (eq_or_mem_of_mem_intercalate listed).imp_right ?_
    rintro ⟨part, among, here⟩
    obtain ⟨number, read⟩ := exists_number read among
    exact inNumber_of_part read c here
  exact ⟨fun listed => absurd (characters _ listed) (by decide),
    fun listed => absurd (characters _ listed) (by decide)⟩

theorem lists_iff (filled : numbers ≠ []) :
    (splitOn ',' inner).mapM float? = some numbers ↔ Lists inner numbers := by
  rw [mapM_eq_some_iff, splitOn_eq]
  constructor
  · intro read
    refine ⟨_, (List.intercalate_splitOn ',').symm, ?_, read⟩
    intro part among
    obtain ⟨number, read⟩ := exists_number read among
    exact fun listed => absurd (inNumber_of_part read _ listed) (by decide)
  · rintro ⟨parts, rfl, apart, read⟩
    rw [List.splitOn_intercalate ',' apart]
    · exact read
    · rintro rfl
      exact filled (List.map_eq_nil_iff.mp read.symm)

theorem components?_eq_some_iff (filled : numbers ≠ []) :
    components? text.toList = some numbers ↔
      ∃ opening closing, Bracketed opening closing text numbers := by
  constructor
  · intro read
    obtain ⟨opening, front⟩ := exists_replicate_front '(' (trim text.toList)
    obtain ⟨closing, back⟩ :=
      exists_replicate_back ')' ((trim text.toList).dropWhile (· = '('))
    refine ⟨opening, closing, _, ?_, (lists_iff filled).mp read⟩
    rw [List.append_assoc, ← back, ← front]
  · rintro ⟨opening, closing, inner, trimmed, lists⟩
    obtain ⟨unopened, unclosed⟩ := lists.bare
    unfold components?
    rw [trimmed, List.append_assoc, dropWhile_replicate_append, dropTrailing_append_replicate]
    · exact (lists_iff filled).mpr lists
    · simp
    · rintro c listed closed
      exact unclosed (of_decide_eq_true closed ▸ listed)
    · simp
    · simp only [List.mem_append, List.mem_replicate]
      rintro c (listed | ⟨_, rfl⟩)
      · exact fun opened => unopened (of_decide_eq_true opened ▸ listed)
      · decide

/-- The numbers of the brackets are read off the text. -/
theorem Bracketed.counts (bracketed : Bracketed opening closing text numbers) :
    (trim text.toList).count '(' = opening ∧ (trim text.toList).count ')' = closing := by
  obtain ⟨inner, trimmed, lists⟩ := bracketed
  obtain ⟨unopened, unclosed⟩ := lists.bare
  rw [trimmed]
  simp [List.count_append, List.count_eq_zero_of_not_mem, unopened, unclosed]

theorem Regular.counts (regular : Regular text numbers) :
    (trim text.toList).count '(' = (trim text.toList).count ')' ∧
      (trim text.toList).count ')' ≤ 1 := by
  rcases regular with alone | paired
  · obtain ⟨opened, closed⟩ := alone.counts
    omega
  · obtain ⟨opened, closed⟩ := paired.counts
    omega

theorem Bracketed.regular_iff (bracketed : Bracketed opening closing text numbers) :
    Regular text numbers ↔ opening = closing ∧ closing ≤ 1 := by
  obtain ⟨opened, closed⟩ := bracketed.counts
  constructor
  · intro regular
    have counts := regular.counts
    rwa [opened, closed] at counts
  · rintro ⟨rfl, most⟩
    rcases Nat.le_one_iff_eq_zero_or_eq_one.mp most with rfl | rfl
    · exact .inl bracketed
    · exact .inr bracketed

theorem vector2?_eq_some_iff {v : Vector2} :
    vector2? text.toList = some v ↔ components? text.toList = some [v.x, v.y] := by
  obtain ⟨x, y⟩ := v
  unfold vector2?
  split <;> simp_all

theorem vector3?_eq_some_iff {v : Vector3} :
    vector3? text.toList = some v ↔ components? text.toList = some [v.x, v.y, v.z] := by
  obtain ⟨x, y, z⟩ := v
  unfold vector3?
  split <;> simp_all

/-- A vector is read from the list of its numbers in any brackets, and only from these texts. Such a
text is a regular literal exactly if its brackets are at most one pair. -/
theorem vectors_are_bracketed_lists (text : String) :
    (∀ v : Vector2, parse? .vector2 text = some v ↔
      ∃ opening closing, Bracketed opening closing text [v.x, v.y]) ∧
    (∀ v : Vector3, parse? .vector3 text = some v ↔
      ∃ opening closing, Bracketed opening closing text [v.x, v.y, v.z]) ∧
    ∀ opening closing numbers, Bracketed opening closing text numbers →
      (Regular text numbers ↔ opening = closing ∧ closing ≤ 1) := by
  refine ⟨fun v => ?_, fun v => ?_, fun _ _ _ bracketed => bracketed.regular_iff⟩
  · change vector2? text.toList = some v ↔ _
    rw [vector2?_eq_some_iff, components?_eq_some_iff (List.cons_ne_nil _ _)]
  · change vector3? text.toList = some v ↔ _
    rw [vector3?_eq_some_iff, components?_eq_some_iff (List.cons_ne_nil _ _)]

theorem pair_is_bracketed_list :
    parse? .vector2 " (1, -.5e1) " = some (⟨1, -5⟩ : Vector2) ∧
      Bracketed 1 1 " (1, -.5e1) " [1, -5] ∧ Regular " (1, -.5e1) " [1, -5] := by
  obtain ⟨pairs, _, regular⟩ := vectors_are_bracketed_lists " (1, -.5e1) "
  have bracketed : Bracketed 1 1 " (1, -.5e1) " [1, -5] :=
    ⟨"1, -.5e1".toList, by decide +kernel, ["1".toList, " -.5e1".toList], by decide +kernel⟩
  exact ⟨(pairs ⟨1, -5⟩).mpr ⟨1, 1, bracketed⟩, bracketed,
    (regular 1 1 _ bracketed).mpr ⟨rfl, Nat.le_refl 1⟩⟩

/-- A bracket that is never closed and brackets that are doubled are dropped like one pair, though
no numbers make these texts regular. -/
theorem stray_brackets_are_dropped :
    (parse? .vector2 "(1, 2" = some (⟨1, 2⟩ : Vector2) ∧
      ∀ numbers, ¬ Regular "(1, 2" numbers) ∧
    (parse? .vector3 "((1, 2, 3))" = some (⟨1, 2, 3⟩ : Vector3) ∧
      ∀ numbers, ¬ Regular "((1, 2, 3))" numbers) := by
  refine ⟨⟨by decide +kernel, fun _ single => ?_⟩, by decide +kernel, fun _ double => ?_⟩
  · exact absurd single.counts (by decide +kernel)
  · exact absurd double.counts (by decide +kernel)

end Literal

end ReactiveTree
