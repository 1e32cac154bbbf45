/-
Identifiers: the names that tables and projects go by, over `a`–`z`, `0`–`9` and
the underscore. `normalize` makes one of any text, so that two spellings of a
table's name meet.
-/
import SeedData.Text.Lowercase

namespace SeedData.Identifier

def isPlain (c : Char) : Bool := c.isLower || c.isDigit || c == '_'

/-- The text with each maximal run of characters outside identifiers made one
underscore; `inRun` tells that such a run has already been written. -/
def flatten : Bool → List Char → List Char
  | _, [] => []
  | inRun, c :: r =>
    if isPlain c then c :: flatten false r
    else if inRun then flatten true r
    else '_' :: flatten true r

/-- The text without the underscores at its two ends. -/
def strip (s : List Char) : List Char :=
  ((s.dropWhile (· == '_')).reverse.dropWhile (· == '_')).reverse

/-- The identifier of a text that holds nothing an identifier can. -/
def fallback : String := "table"

/-- Puts the mark in front that keeps an identifier from starting with a digit,
and stands in for an empty one. -/
def anchor : List Char → List Char
  | [] => fallback.toList
  | c :: r => if c.isDigit then 't' :: '_' :: c :: r else c :: r

/-- The identifier of a text: lower case, each run of other characters one
underscore, none at the ends. -/
def normalizeChars (s : List Char) : List Char := anchor (strip (flatten false (Text.lowercase s)))

/-- The identifier of a name as it is written. -/
def normalize (raw : String) : String := String.ofList (normalizeChars raw.toList)

end SeedData.Identifier
