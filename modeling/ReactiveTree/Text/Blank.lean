/-!
Blank characters, the property White_Space of Unicode, and the text between them.
-/

namespace ReactiveTree.Text

def blankRanges : List (Nat × Nat) :=
  [(0x9, 0xD), (0x20, 0x20), (0x85, 0x85), (0xA0, 0xA0), (0x1680, 0x1680), (0x2000, 0x200A),
    (0x2028, 0x2029), (0x202F, 0x202F), (0x205F, 0x205F), (0x3000, 0x3000)]

def isBlank (c : Char) : Bool :=
  blankRanges.any fun range => range.1 ≤ c.toNat && c.toNat ≤ range.2

def dropTrailing (drop : Char → Bool) (text : List Char) : List Char :=
  (text.reverse.dropWhile drop).reverse

def trim (text : List Char) : List Char :=
  dropTrailing isBlank (text.dropWhile isBlank)

/-- The parts of a list between separators; a list without separators is its own only part. -/
def splitOn {α : Type} [DecidableEq α] (separator : α) : List α → List (List α)
  | [] => [[]]
  | a :: rest =>
    if a = separator then [] :: splitOn separator rest
    else match splitOn separator rest with
      | [] => [[a]]
      | part :: parts => (a :: part) :: parts

def lower (text : List Char) : List Char :=
  text.map Char.toLower

def sameButCase (a b : String) : Bool :=
  lower a.toList == lower b.toList

end ReactiveTree.Text
