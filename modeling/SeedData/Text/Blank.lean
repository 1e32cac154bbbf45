/-
Blank characters, and what schema text does with them: cutting them off at the
ends (`trim`), and splitting at them (`words`). Text is a list of characters
here, so that a reader of text recurses on it. Nothing here makes text longer.

The lines of a text: a line ends at a line feed; a carriage return right before
the line feed belongs to the line's end, not to the line. Text after the last
line feed is a line of its own, as it stands.
-/
namespace SeedData.Text

/-- The characters with the property White_Space: the ASCII blanks and line
controls, the next-line control, and the spaces and separators beyond ASCII. -/
def isBlank (c : Char) : Bool :=
  let n := c.toNat
  (0x09 ≤ n && n ≤ 0x0D) || n == 0x20 || n == 0x85 || n == 0xA0 || n == 0x1680
    || (0x2000 ≤ n && n ≤ 0x200A) || n == 0x2028 || n == 0x2029 || n == 0x202F
    || n == 0x205F || n == 0x3000

def trimLeft (s : List Char) : List Char := s.dropWhile isBlank

def trimRight (s : List Char) : List Char := (s.reverse.dropWhile isBlank).reverse

/-- The text without the blanks at its two ends. -/
def trim (s : List Char) : List Char := trimRight (trimLeft s)

/-- The pieces between the characters that satisfy `p`, empty ones included:
one more than there are such characters. -/
def splitOn (p : Char → Bool) : List Char → List (List Char)
  | [] => [[]]
  | c :: r =>
    if p c then [] :: splitOn p r
    else match splitOn p r with
      | [] => [[c]]
      | w :: ws => (c :: w) :: ws

/-- The maximal runs of characters that are not blank. -/
def words (s : List Char) : List (List Char) := (splitOn isBlank s).filter (· ≠ [])

/-- The pieces put one after the other with `separator` between them. -/
def join (separator : List Char) (pieces : List (List Char)) : List Char :=
  separator.intercalate pieces

/-- The text with each run of blanks inside it made one space, and none at its
ends. -/
def collapse (s : List Char) : List Char := join [' '] (words s)

def contains (needle : List Char) : List Char → Bool
  | [] => needle.isEmpty
  | c :: r => needle.isPrefixOf (c :: r) || contains needle r

/-! ## Lines -/

/-- The line without the carriage return at its end, if it has one. -/
def dropReturn (line : List Char) : List Char :=
  if line.getLast? = some '\r' then line.dropLast else line

/-- The lines of a text, given the characters of the line being read. -/
def linesFrom (current : List Char) : List Char → List (List Char)
  | [] => if current.isEmpty then [] else [current.reverse]
  | c :: r =>
    if c = '\n' then dropReturn current.reverse :: linesFrom [] r
    else linesFrom (c :: current) r

def lines (s : List Char) : List (List Char) := linesFrom [] s

/-! ## Splitting -/

theorem splitOn_ne_nil (p : Char → Bool) (s : List Char) : splitOn p s ≠ [] := by
  cases s with
  | nil => simp [splitOn]
  | cons c s =>
    rw [splitOn]
    split
    · simp
    · split <;> simp

theorem splitOn_at {p : Char → Bool} {c : Char} (hc : p c = true) (x y : List Char) :
    splitOn p (x ++ c :: y) = splitOn p x ++ splitOn p y := by
  induction x with
  | nil => simp [splitOn, hc]
  | cons d x ih =>
    rw [List.cons_append, splitOn, splitOn, ih]
    split
    · rfl
    · cases hx : splitOn p x with
      | nil => exact absurd hx (splitOn_ne_nil _ x)
      | cons w ws => rfl

/-! ## Trimming -/

theorem trimLeft_length_le (s : List Char) : (trimLeft s).length ≤ s.length := by
  induction s with
  | nil => simp [trimLeft]
  | cons c r ih =>
    simp only [trimLeft, List.dropWhile_cons] at ih ⊢
    split
    · exact Nat.le_succ_of_le ih
    · exact Nat.le_refl _

theorem trimRight_length_le (s : List Char) : (trimRight s).length ≤ s.length := by
  simpa [trimRight, trimLeft] using trimLeft_length_le s.reverse

theorem trim_length_le (s : List Char) : (trim s).length ≤ s.length :=
  Nat.le_trans (trimRight_length_le _) (trimLeft_length_le s)

end SeedData.Text
