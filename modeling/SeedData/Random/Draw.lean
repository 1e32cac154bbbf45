/-
Random choices, as programs over a keystream. Each takes a number of words that
only the words themselves decide, so a seed fixes every later choice.

Some choices rely on what they are made from, as that there is a number below a bound.
They can be made wherever there are draws (`Drawing`), be it where nothing is done about
it or where a run stops when it does not hold.
-/
import SeedData.Random.Keystream

namespace SeedData

abbrev Draw := StateM Keystream

/-- Where random choices are made. -/
class Drawing (m : Type → Type) where
  draw {α : Type} : Draw α → m α
  /-- Goes on from a condition that the next step relies on. -/
  rely : Bool → m Unit

export Drawing (draw rely)

/-- A draw gives a result whatever it relies on. -/
instance : Drawing Draw where
  draw d := d
  rely _ := pure ()

namespace Draw

/-- The result of a choice from the keystream of a seed. -/
def runSeed {α : Type} (d : Draw α) (seed : UInt64) : α × Keystream := d.run (Keystream.ofSeed seed)

def word : Draw UInt32 := fun s => s.word

/-- A word of 64 bits, the low half first. -/
def longWord : Draw UInt64 := do
  let low ← word
  let high ← word
  return high.toUInt64 <<< 32 ||| low.toUInt64

/-- A number below `n`, from draws below `size`. The first draw is scaled to the
range; where the part cut off could carry, a second draw decides whether it
does. -/
def scaled (size : Nat) (draw : Draw Nat) (n : Nat) : Draw Nat := do
  let product := (← draw) * n
  let high := product / size
  let low := product % size
  if (size - n) % size < low then
    let more := (← draw) * n / size
    return if size ≤ low + more then high + 1 else high
  else return high

section

variable {m : Type → Type} [Monad m] [Drawing m]

/-- A number below `n`, from words of 32 bits. -/
def below (n : Nat) : m Nat := do
  rely (0 < n)
  draw (scaled 0x100000000 (do return (← word).toNat) n)

/-- A number below `n`, from words of 64 bits. -/
def belowLong (n : Nat) : m Nat := do
  rely (0 < n)
  draw (scaled 0x10000000000000000 (do return (← longWord).toNat) n)

end

/-- A number from `first` to before `last`. -/
def range (first last : Nat) : Draw Nat := do return first + (← below (last - first))

def byte : Draw Nat := do return (← word).toNat % 256

/-- Either, with equal chances. -/
def bool : Draw Bool := do return 0x80000000 ≤ (← word)

/-- True with the given chance, a number from zero to one. A chance of one is no choice and
takes no word. -/
def chance {m : Type → Type} [Monad m] [Drawing m] (p : Float) : m Bool := do
  rely (0.0 ≤ p ∧ p ≤ 1.0)
  if p == 1.0 then return true
  else return (← draw longWord) < (p * 18446744073709551616.0).toUInt64

/-- A number from zero to before one, in steps of 2⁻⁵². -/
def unit : Draw Float := do
  return Float.ofBits ((← longWord) >>> 12 ||| 0x3FF0000000000000) - 1.0

def between {m : Type → Type} [Monad m] [Drawing m] (low high : Float) : m Float := do
  rely (low ≤ high)
  return (← draw unit) * (high - low) + low

def times {α : Type} (d : Draw α) : Nat → Draw (List α)
  | 0 => return []
  | n + 1 => do
    let a ← d
    return a :: (← d.times n)

end Draw
end SeedData
