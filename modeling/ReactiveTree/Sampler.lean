import ReactiveTree.Number.Single
import ReactiveTree.Number.WordStream

/-!
Sources of random singles: samples in `[0, 1)` from a word stream or from a list that is replayed,
and draws from a range.
-/

namespace ReactiveTree

/-- A list of samples starts again when it is exhausted. -/
inductive Sampler where
  | seeded (stream : WordStream)
  | replayed (samples rest : List Single)
  deriving DecidableEq

namespace Sampler

def ofSeed (seed : Nat) : Sampler := .seeded (WordStream.seeded seed)

def ofSamples? (samples : List Single) : Option Sampler :=
  if samples.isEmpty then none else some (.replayed samples samples)

def fraction (word : UInt32) : Single :=
  Single.ofRatio false ((word >>> 8).toNat * Nat.pow 2 125) 1

def next : Sampler → Single × Sampler
  | .seeded stream =>
    let word := stream.next
    (fraction word.1, .seeded word.2)
  | .replayed samples (sample :: rest) => (sample, .replayed samples rest)
  | .replayed samples [] =>
    match samples with
    | [] => (Single.zero, .replayed [] [])
    | sample :: rest => (sample, .replayed samples rest)

def take : Nat → Sampler → List Single
  | 0, _ => []
  | count + 1, sampler =>
    let drawn := sampler.next
    drawn.1 :: take count drawn.2

end Sampler

namespace WordStream

/-- A single in `[1, 2)` from the upper 23 bits of a word, less one, stretched over the range. -/
def stretch (low high : Single) (word : UInt32) : Single :=
  let unit := Single.ofBits (0x3f800000 + (word >>> 9).toNat) - 1
  unit * (high - low) + low

def drawBelow (low high : Single) : Nat → WordStream → Single × WordStream
  | 0, stream => (low, stream)
  | attempts + 1, stream =>
    let word := stream.next
    let value := stretch low high word.1
    if value.less high then (value, word.2) else drawBelow low high attempts word.2

/-- A draw from `[low, high)`, and `low` itself from an empty range. There is no draw from a range
that is infinitely wide. -/
def range? (low high : Single) (stream : WordStream) : Option (Single × WordStream) :=
  if !low.less high then some (low, stream)
  else if low.isFinite && high.isFinite && (high - low).isFinite then
    some (drawBelow low high 4096 stream)
  else none

end WordStream

end ReactiveTree
