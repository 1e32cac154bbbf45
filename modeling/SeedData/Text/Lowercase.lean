/-
Lower case by the rules of Unicode: each character has one lower-case form, but
for the dotted capital I, whose form is two characters, and the capital sigma,
whose form depends on its place in the word.
-/
import SeedData.Text.CaseTable

namespace SeedData.Text

/-- Whether a run of case data holds the code point. -/
def CaseRun.holds (run : CaseRun) (n : Nat) : Bool :=
  run.first ≤ n && n ≤ run.last && (n - run.first) % run.stride == 0

/-- The lower-case form of a character on its own. -/
def lowerChar (c : Char) : Char :=
  if c.toNat < 0x80 then c.toLower
  else match caseRuns.find? (·.holds c.toNat) with
    | some run => Char.ofNat ((c.toNat : Int) + run.shift).toNat
    | none => c

/-- Whether the first character that is not case-ignorable is cased. -/
def meetsCased (s : List Char) : Bool :=
  match s.dropWhile (fun c => inRanges ignorableRanges c.toNat) with
  | [] => false
  | c :: _ => inRanges casedRanges c.toNat

/-- A capital sigma takes its final form after a cased character, unless one
follows. `before` is the text before it, nearest character first. -/
def lowerSigma (before after : List Char) : Char :=
  if meetsCased before && !meetsCased after then 'ς' else 'σ'

/-- The text in lower case, `before` standing in front of it in reverse. -/
def lowercaseFrom (before : List Char) : List Char → List Char
  | [] => []
  | c :: r =>
    let low :=
      if c = 'Σ' then [lowerSigma before r]
      else if c = '\u0130' then ['i', '\u0307']
      else [lowerChar c]
    low ++ lowercaseFrom (c :: before) r

def lowercase (s : List Char) : List Char := lowercaseFrom [] s

end SeedData.Text
