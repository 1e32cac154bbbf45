/-
The random source: the keystream of ChaCha with eight rounds, as 32-bit words.
A block is a function of the key and of its number; a keystream gives the words
of block after block, none left out.
-/
namespace SeedData

namespace ChaCha

abbrev Block := Vector UInt32 16

def rotateLeft (x n : UInt32) : UInt32 := (x <<< n) ||| (x >>> (32 - n))

/-- Mixes four words of the block. -/
def quarterRound (s : Block) (a b c d : Fin 16) : Block :=
  let s := s.set a (s.get a + s.get b)
  let s := s.set d (rotateLeft (s.get d ^^^ s.get a) 16)
  let s := s.set c (s.get c + s.get d)
  let s := s.set b (rotateLeft (s.get b ^^^ s.get c) 12)
  let s := s.set a (s.get a + s.get b)
  let s := s.set d (rotateLeft (s.get d ^^^ s.get a) 8)
  let s := s.set c (s.get c + s.get d)
  s.set b (rotateLeft (s.get b ^^^ s.get c) 7)

/-- Mixes the four columns, then the four diagonals. -/
def doubleRound (s : Block) : Block :=
  let s := quarterRound s 0 4 8 12
  let s := quarterRound s 1 5 9 13
  let s := quarterRound s 2 6 10 14
  let s := quarterRound s 3 7 11 15
  let s := quarterRound s 0 5 10 15
  let s := quarterRound s 1 6 11 12
  let s := quarterRound s 2 7 8 13
  quarterRound s 3 4 9 14

/-- The block before mixing: four constants, the key, the number of the block and
an empty nonce. -/
def initial (key : Vector UInt32 8) (number : UInt64) : Block :=
  #v[0x61707865, 0x3320646e, 0x79622d32, 0x6b206574,
    key.get 0, key.get 1, key.get 2, key.get 3, key.get 4, key.get 5, key.get 6, key.get 7,
    number.toUInt32, (number >>> 32).toUInt32, 0, 0]

/-- A block of the keystream. -/
def block (key : Vector UInt32 8) (number : UInt64) : Block :=
  let start := initial key number
  let mixed := doubleRound (doubleRound (doubleRound (doubleRound start)))
  mixed.zipWith (· + ·) start

end ChaCha

/-- A keystream: its key, the number of the next block, and the words that are
left of the last. -/
structure Keystream where
  key : Vector UInt32 8
  next : UInt64
  left : List UInt32
  deriving Repr

namespace Keystream

/-- One step of the generator that expands a seed. -/
def seedStep (state : UInt64) : UInt64 := state * 6364136223846793005 + 11634580027462260723

/-- The word that a state of that generator gives. -/
def seedWord (state : UInt64) : UInt32 :=
  let x := (((state >>> 18) ^^^ state) >>> 27).toUInt32
  let turn := (state >>> 59).toUInt32
  (x >>> turn) ||| (x <<< (32 - turn))

/-- The words of `count` steps from a state. -/
def seedWords (state : UInt64) : Nat → List UInt32
  | 0 => []
  | count + 1 => seedWord (seedStep state) :: seedWords (seedStep state) count

def ofSeed (seed : UInt64) : Keystream :=
  let words := seedWords seed 8
  ⟨Vector.ofFn fun i => words.getD i 0, 0, []⟩

/-- The next word, and the keystream after it. -/
def word (s : Keystream) : UInt32 × Keystream :=
  match s.left with
  | w :: rest => (w, { s with left := rest })
  | [] =>
    let block := ChaCha.block s.key s.next
    (block.get 0, { s with next := s.next + 1, left := block.toList.drop 1 })

end Keystream
end SeedData
