/-
Decimal text of floating-point numbers: the fewest digits that read back as the
same number, the nearest such if there are two, written in positional notation
with no point in whole numbers.

A finite double is `m · 2 ^ q`. The reals that round to it form an interval
around it, whose ends belong to it when `m` is even. For each count of digits the
two neighbours of the number on that decimal grid are tried; the first grid with
a neighbour inside the interval gives the digits.
-/
namespace SeedData.Decimal

def pow2 (n : Nat) : Nat := Nat.pow 2 n

def pow10 (n : Nat) : Nat := Nat.pow 10 n

/-- A positive number among its neighbours, as numerators over one denominator:
the number itself, and the ends of the interval of reals that round to it. -/
structure Rounding where
  low : Nat
  value : Nat
  high : Nat
  denominator : Nat
  closed : Bool

/-- The interval of the double with mantissa `m` and exponent `q`. The gap below a
power of two is half the gap above it, but for the least exponent. -/
def Rounding.ofMantissa (m : Nat) (q : Int) (narrowBelow : Bool) : Rounding :=
  let scale := pow2 (q - 2).toNat
  { low := (4 * m - if narrowBelow then 1 else 2) * scale
    value := 4 * m * scale
    high := (4 * m + 2) * scale
    denominator := pow2 (2 - q).toNat
    closed := m % 2 == 0 }

/-- Digits at a decimal exponent: the number `digits · 10 ^ exponent`. -/
structure Scaled where
  digits : Nat
  exponent : Int

/-- Whether the digit string rounds to the number of the interval. -/
def Rounding.holds (r : Rounding) (s : Scaled) : Bool :=
  let here := s.digits * pow10 s.exponent.toNat * r.denominator
  let unit := pow10 (-s.exponent).toNat
  if r.closed then r.low * unit ≤ here && here ≤ r.high * unit
  else r.low * unit < here && here < r.high * unit

/-- The neighbour of the number on the grid of multiples of `10 ^ exponent` that
rounds to it: of two the nearer, and the upper one if they are equally near. -/
def Rounding.onGrid? (r : Rounding) (exponent : Int) : Option Scaled :=
  let numerator := r.value * pow10 (-exponent).toNat
  let divisor := r.denominator * pow10 exponent.toNat
  let below : Scaled := ⟨numerator / divisor, exponent⟩
  let above : Scaled := ⟨numerator / divisor + 1, exponent⟩
  let upper := 2 * (numerator % divisor) ≥ divisor
  match r.holds below, r.holds above with
  | true, true => some (if upper then above else below)
  | true, false => some below
  | false, true => some above
  | false, false => none

/-- The first hit among the grids of `count` ever finer exponents. -/
def Rounding.search (r : Rounding) (exponent : Int) : Nat → Scaled
  | 0 => ⟨0, 0⟩
  | count + 1 =>
    match r.onGrid? exponent with
    | some s => s
    | none => r.search (exponent - 1) count

/-- The decimal exponent of the leading digit of the number. -/
def Rounding.leading (r : Rounding) : Int :=
  if r.denominator ≤ r.value then ((Nat.toDigits 10 (r.value / r.denominator)).length : Int) - 1
  else
    let zeros := (Nat.toDigits 10 (r.denominator / r.value)).length
    if r.value * pow10 (zeros - 1) < r.denominator then -(zeros : Int) else 1 - (zeros : Int)

/-- Seventeen digits tell any two doubles apart. -/
def Rounding.shortest (r : Rounding) : Scaled := r.search r.leading 17

/-- The number in positional notation, without a point if it is whole. -/
def Scaled.text (s : Scaled) : String :=
  let digits := Nat.toDigits 10 s.digits
  if 0 ≤ s.exponent then String.ofList (digits ++ List.replicate s.exponent.toNat '0')
  else
    let places := (-s.exponent).toNat
    let padded := List.replicate (places + 1 - digits.length) '0' ++ digits
    let whole := padded.take (padded.length - places)
    let fraction := (padded.drop (padded.length - places)).reverse.dropWhile (· == '0')
    if fraction.isEmpty then String.ofList whole
    else String.ofList (whole ++ '.' :: fraction.reverse)

/-- The text of the double with these bits after its sign. -/
def textOfMagnitude (bits : Nat) : String :=
  let fraction : Nat := bits % pow2 52
  let exponent : Nat := bits / pow2 52
  if bits == 0 then "0"
  else if exponent == 0 then (Rounding.ofMantissa fraction (-1074) false).shortest.text
  else
    (Rounding.ofMantissa (pow2 52 + fraction) (exponent - 1075)
      (fraction == 0 && exponent != 1)).shortest.text

/-- The text of a double: `NaN`, `inf` or `-inf`, or the decimal text of its
magnitude after its sign, which zero keeps. -/
def text (x : Float) : String :=
  let bits := x.toBits.toNat
  let sign := if bits < pow2 63 then "" else "-"
  let magnitude := bits % pow2 63
  if magnitude > 0x7FF0000000000000 then "NaN"
  else if magnitude == 0x7FF0000000000000 then sign ++ "inf"
  else sign ++ textOfMagnitude magnitude

def isFinite (x : Float) : Bool := x.toBits.toNat % pow2 63 < 0x7FF0000000000000

/-- The number with this many decimal places, a half going away from zero. Nine
places are the most that are kept. -/
def roundTo (x : Float) (places : Nat) : Float :=
  let factor := Float.ofNat (pow10 (min places 9))
  (x * factor).round / factor

end SeedData.Decimal
