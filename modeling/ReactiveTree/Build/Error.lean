import ReactiveTree.Binding
import ReactiveTree.NodeKind
import ReactiveTree.Registry
import ReactiveTree.Weights

/-!
Why a graph does not become a tree.
-/

namespace ReactiveTree

inductive BuildError where
  | emptyGraph
  | missingRoot
  | missingNode (parent child : String)
  | unknownNodeKind (node kind : String)
  | unknownUnit (node : String) (role : Role) (name : String)
  | argumentCount (node unit : String) (direction : Direction) (expected found : Nat)
  | childCount (node : String) (kind : NodeKind) (found : Nat)
  | missingParameter (node name : String)
  | invalidMode (node text : String)
  | invalidWeights (node : String) (error : WeightError)
  | sharedChild (node : String)
  | unknownSubtree (node name : String)
  | recursiveSubtree (name : String)
  | binding (node unit : String) (error : BindError)
  | invalidValue (name value : String) (kind : ValueKind)
  | valueWithoutKind (name : String)
  deriving DecidableEq

inductive ChildCount where
  | exactly (n : Nat)
  | atLeastOne
  deriving DecidableEq, Repr

namespace ChildCount

def accepts : ChildCount → Nat → Bool
  | .exactly n, found => found = n
  | .atLeastOne, found => 1 ≤ found

def description : ChildCount → String
  | .exactly 0 => "no"
  | .exactly n => "exactly " ++ toString n
  | .atLeastOne => "at least 1"

end ChildCount

def NodeKind.childCount : NodeKind → ChildCount
  | .selector | .sequencer | .weightedRandomSelector => .atLeastOne
  | .simpleParallel => .exactly 2
  | .root | .repeater | .loop | .inverseDecorator | .loopConditionNode => .exactly 1
  | .conditionNode | .actionNode | .functionNode => .exactly 0

namespace BuildError

def quoted (node : String) : String := "node `" ++ node ++ "`"

def message : BuildError → String
  | .emptyGraph => "node graph is empty"
  | .missingRoot => "node graph has no root descriptor"
  | .missingNode parent child =>
    quoted parent ++ " references missing child `" ++ child ++ "`"
  | .unknownNodeKind node kind => quoted node ++ " has unknown kind `" ++ kind ++ "`"
  | .unknownUnit node role name =>
    quoted node ++ " references unknown " ++ role.name ++ " type `" ++ name ++ "`"
  | .argumentCount node unit direction expected found =>
    quoted node ++ " (" ++ unit ++ ") expects " ++ toString expected ++ " " ++ direction.name ++
      " argument(s), found " ++ toString found
  | .childCount node kind found =>
    kind.name ++ " " ++ quoted node ++ " expects " ++ kind.childCount.description ++
      " child(ren), found " ++ toString found
  | .missingParameter node name => quoted node ++ " is missing parameter `" ++ name ++ "`"
  | .invalidMode node text =>
    quoted node ++ " has invalid parameter `mode`: `" ++ text ++
      "` is not one of Once, True, True -> False, Both"
  | .invalidWeights node error => quoted node ++ " has invalid weights: " ++ error.message
  | .sharedChild node => quoted node ++ " is reachable more than once"
  | .unknownSubtree node name =>
    quoted node ++ " references unknown subtree `" ++ name ++ "`"
  | .recursiveSubtree name => "subtree `" ++ name ++ "` includes itself"
  | .binding node unit error => quoted node ++ " (" ++ unit ++ "): " ++ error.message
  | .invalidValue name value kind =>
    "variable `" ++ name ++ "`: `" ++ value ++ "` is not a valid " ++ kind.description
  | .valueWithoutKind name => "variable `" ++ name ++ "`: an initial value needs a kind"

end BuildError

end ReactiveTree
