import ReactiveTree.Sampler
import ReactiveTree.Value

/-!
A body on a plane. It is moved and turned, and it knows the length of the current frame. All
arithmetic is that of single precision.
-/

namespace ReactiveTree

def seconds (nanoseconds : Nat) : Single :=
  Single.ofNat (nanoseconds / 1000000000) +
    Single.ofNat (nanoseconds % 1000000000) / Single.ofNat 1000000000

/-- `heading` is in degrees, and `delta` is the length of the current frame in nanoseconds. -/
structure Pawn where
  name : String
  position : Vector3
  heading : Single
  frame : Nat
  delta : Nat
  stream : WordStream
  deriving DecidableEq

namespace Pawn

def seeded (name : String) (seed : Nat) : Pawn :=
  ⟨name, ⟨0, 0, 0⟩, 0, 0, 0, WordStream.seeded seed⟩

def placed (pawn : Pawn) (position : Vector3) : Pawn :=
  { pawn with position }

def deltaSeconds (pawn : Pawn) : Single := seconds pawn.delta

def translate (pawn : Pawn) (offset : Vector3) : Pawn :=
  { pawn with position :=
    ⟨pawn.position.x + offset.x, pawn.position.y + offset.y, pawn.position.z + offset.z⟩ }

/-- Turns by a number of degrees and brings the heading back into one full turn. -/
def rotate (pawn : Pawn) (degrees : Single) : Pawn :=
  { pawn with heading := (pawn.heading + degrees).wrap 360 }

def random? (pawn : Pawn) (low high : Single) : Option (Single × Pawn) :=
  (pawn.stream.range? low high).map fun (value, stream) => (value, { pawn with stream })

def beginFrame (pawn : Pawn) (delta : Nat) : Pawn :=
  { pawn with frame := pawn.frame + 1, delta }

end Pawn

end ReactiveTree
