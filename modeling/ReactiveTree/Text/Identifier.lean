import ReactiveTree.Text.Letters
import ReactiveTree.Text.Marks

/-!
Characters of identifiers: a letter or an underscore in front, and letters, digits, marks and
connecting punctuation behind it.
-/

namespace ReactiveTree.Text

def within (ranges : List (Nat × Nat)) (c : Char) : Bool :=
  ranges.any fun range => range.1 ≤ c.toNat && c.toNat ≤ range.2

def isIdentifierStart (c : Char) : Bool :=
  c.isAlpha || c = '_' || (0x80 ≤ c.toNat && within letters c)

def isIdentifierRest (c : Char) : Bool :=
  c.isAlphanum || c = '_' || (0x80 ≤ c.toNat && (within letters c || within marks c))

end ReactiveTree.Text
