/-
Universally unique identifiers: 128-bit numbers, written as 32 hexadecimal digits
in groups of 8, 4, 4, 4 and 12. Random ones carry the version 4 and the variant
in six fixed bits.
-/
import SeedData.Random.Draw

namespace SeedData.Uuid

/-- The hexadecimal digit of a number below sixteen. -/
def hexDigit (n : Nat) : Char := if n < 10 then Char.ofNat (48 + n) else Char.ofNat (87 + n)

/-- The last `width` hexadecimal digits of a number. -/
def hexDigits : Nat → Nat → List Char
  | 0, _ => []
  | width + 1, n => hexDigits width (n / 16) ++ [hexDigit (n % 16)]

/-- The text of the identifier of a number. -/
def text (n : Nat) : String :=
  let d := hexDigits 32 n
  String.ofList (d.take 8 ++ '-' :: (d.drop 8).take 4 ++ '-' :: (d.drop 12).take 4
    ++ '-' :: (d.drop 16).take 4 ++ '-' :: d.drop 20)

/-- The word with its bytes in the opposite order. -/
def swapBytes (w : UInt32) : UInt32 :=
  let middle : UInt32 := 0xFF00
  (w <<< 24) ||| ((w &&& middle) <<< 8) ||| ((w >>> 8) &&& middle) ||| (w >>> 24)

def random : Draw String := do
  let a := swapBytes (← Draw.word)
  let b := swapBytes (← Draw.word)
  let c := swapBytes (← Draw.word)
  let d := swapBytes (← Draw.word)
  let b := (b &&& (0xFFFF0FFF : UInt32)) ||| (0x00004000 : UInt32)
  let c := (c &&& (0x3FFFFFFF : UInt32)) ||| (0x80000000 : UInt32)
  let high := a.toNat * 0x100000000 + b.toNat
  let low := c.toNat * 0x100000000 + d.toNat
  return text (high * 0x10000000000000000 + low)

end SeedData.Uuid
