/-!
A reproducible stream of 32-bit words: the key stream of the ChaCha cipher with twelve rounds, its
key spread from a 64-bit seed by a congruential generator.
-/

namespace ReactiveTree

structure WordStream where
  key : List UInt32
  index : Nat
  deriving DecidableEq, Repr

namespace WordStream

def rotateLeft (word : UInt32) (by_ : UInt32) : UInt32 :=
  (word <<< by_) ||| (word >>> (32 - by_))

def rotateRight (word : UInt32) (by_ : UInt32) : UInt32 :=
  (word >>> by_) ||| (word <<< ((32 - by_) % 32))

/-- One key word: the high bits of the state, mixed and rotated by its topmost bits. -/
def keyWord (state : UInt64) : UInt32 :=
  rotateRight (((state >>> 18) ^^^ state) >>> 27).toUInt32 (state >>> 59).toUInt32

def spread : Nat → UInt64 → List UInt32
  | 0, _ => []
  | count + 1, state =>
    let state := state * 6364136223846793005 + 11634580027462260723
    keyWord state :: spread count state

def seeded (seed : Nat) : WordStream :=
  ⟨spread 8 (UInt64.ofNat seed), 0⟩

def quarterRound (block : Vector UInt32 16) (a b c d : Fin 16) : Vector UInt32 16 :=
  let w := block[a] + block[b]
  let z := rotateLeft (block[d] ^^^ w) 16
  let y := block[c] + z
  let x := rotateLeft (block[b] ^^^ y) 12
  let w := w + x
  let z := rotateLeft (z ^^^ w) 8
  let y := y + z
  let x := rotateLeft (x ^^^ y) 7
  (((block.set a w).set b x).set c y).set d z

def doubleRound (block : Vector UInt32 16) : Vector UInt32 16 :=
  let block := quarterRound block 0 4 8 12
  let block := quarterRound block 1 5 9 13
  let block := quarterRound block 2 6 10 14
  let block := quarterRound block 3 7 11 15
  let block := quarterRound block 0 5 10 15
  let block := quarterRound block 1 6 11 12
  let block := quarterRound block 2 7 8 13
  quarterRound block 3 4 9 14

/-- Four constants, the key, the number of the block in two words, and two zeros. -/
def input (key : List UInt32) (number : Nat) : Vector UInt32 16 :=
  Vector.ofFn fun i =>
    if i.val < 4 then [0x61707865, 0x3320646e, 0x79622d32, 0x6b206574].getD i.val 0
    else if i.val < 12 then key.getD (i.val - 4) 0
    else if i.val = 12 then UInt32.ofNat number
    else if i.val = 13 then UInt32.ofNat (number / Nat.pow 2 32)
    else 0

def block (key : List UInt32) (number : Nat) : Vector UInt32 16 :=
  let start := input key number
  let mixed := Nat.repeat doubleRound 6 start
  Vector.zipWith (· + ·) mixed start

def next (stream : WordStream) : UInt32 × WordStream :=
  ((block stream.key (stream.index / 16)).get ⟨stream.index % 16, Nat.mod_lt _ (by decide)⟩,
    { stream with index := stream.index + 1 })

end WordStream

end ReactiveTree
