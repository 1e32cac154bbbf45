/-
Schema text to schemas. Code is read line by line, each by what the innermost open
block makes of it: `Draft.step` takes one line, and gives back the text behind an
opening brace when it meets one, which `Draft.read` goes on with.

`Draft.step_shorter`: that text is shorter than the line, so reading ends.
-/
import SeedData.Dbml.Code
import SeedData.Dbml.Draft
import SeedData.Text.Blank

namespace SeedData.Dbml

open Text

/-- What is still to be read of a line: the text behind an opening brace, and
whether a closing brace follows it. -/
structure Inner where
  text : List Char
  closes : Bool
  deriving DecidableEq, Repr

namespace Draft

/-- A draft, and what is still to be read of its line. -/
abbrev Step := Draft × Option Inner

/-- Opens the block if its brace stands on the line, and waits for it if not.
Behind the brace the line is read up to the first brace that closes. -/
def openOrWait (d : Draft) (header : Block) (line : List Char) : Step :=
  match afterOutside? (· == '\x7b') line with
  | none => ({ d with header := some header }, none)
  | some inner =>
    let (text, rest) := breakOutside (· == '\x7d') none inner
    (d.enter header, some ⟨text, !rest.isEmpty⟩)

/-- A block whose content is skipped, before its first line. -/
def skippedBlock : Block := .skipped 1

/-- The header of a table. An alias counts from here on, and for what was read
before. -/
def tableHeader (d : Draft) (line : List Char) : Step :=
  match tableHeader? line with
  | none => (d.notice (.malformedTableHeader (String.ofList line))).openOrWait skippedBlock line
  | some (name, shortName?) =>
    let spelled := String.ofList (joinParts name)
    let table := Identifier.normalize spelled
    let aliases := match shortName? with
      | none => d.aliases
      | some shortName => (String.ofList (unquote shortName), table) :: d.aliases
    { d with aliases }.openOrWait (.table ⟨table, []⟩ spelled) line

def enumHeader (d : Draft) (line : List Char) : Step :=
  match enumHeader? line with
  | none => (d.notice (.malformedEnumHeader (String.ofList line))).openOrWait skippedBlock line
  | some name => d.openOrWait (.enum ⟨String.ofList (joinParts name), []⟩) line

/-- What follows the keyword `ref` at top level: a relation after a colon, or the
header of a block of relations. -/
def refDirective (d : Draft) (rest : List Char) : Step :=
  match (breakOutside (fun c => c == ':' || c == '\x7b') none rest).2 with
  | c :: text => if c == ':' then (d.relation text, none) else d.openOrWait .references rest
  | [] => d.openOrWait .references rest

def topLevelLine (d : Draft) (line : List Char) : Step :=
  let keyword := leadingKeyword line
  if keyword = "table".toList then d.tableHeader line
  else if keyword = "ref".toList then d.refDirective (line.drop 3)
  else if keyword = "enum".toList then d.enumHeader line
  else if line.head? = some '\x7d' then (d.notice (.unbalancedBrace (String.ofList line)), none)
  else if isBlockHeader line then
    (d.notice (.skippingBlock (String.ofList keyword))).openOrWait skippedBlock line
  else if isDirective keyword line then (d, none)
  else (d.notice (.ignoredLine (String.ofList line)), none)

/-- A line of a table: its end, a block or a remark or a relation inside it, or a
column. -/
def tableLine (d : Draft) (t : Table) (spelled : String) (outer : List Block) (line : List Char) :
    Step :=
  let keyword := leadingKeyword line
  if line.head? = some '\x7d' then (d.close, none)
  else if keyword = "indexes".toList ∧ opensBlock keyword line then d.openOrWait skippedBlock line
  else if keyword = "note".toList ∧ isDirective keyword line then
    if isBlockHeader line then d.openOrWait skippedBlock line else (d, none)
  else if keyword = "ref".toList ∧ isDirective keyword line then
    match afterOutside? (· == ':') line with
    | some text => (d.relation text, none)
    | none => (d, none)
  else (d.columnLine t spelled outer line, none)

/-- A line by what the innermost block makes of it. -/
def lineIn (d : Draft) (line : List Char) : Step :=
  match d.blocks with
  | [] => d.topLevelLine line
  | .skipped depth :: outer => (d.skippedLine depth outer line, none)
  | .table t spelled :: outer => d.tableLine t spelled outer line
  | .references :: _ =>
    if line.head? = some '\x7d' then (d.close, none) else (d.relation line, none)
  | .enum e :: outer =>
    if line.head? = some '\x7d' then (d.close, none) else (d.labelLine e outer line, none)

/-- One line of code. A header that waits for its brace is given up if the line
does not start with one. -/
def step (d : Draft) (code : List Char) : Step :=
  match trim code with
  | [] => (d, none)
  | c :: r =>
    match d.header with
    | none => d.lineIn (c :: r)
    | some header =>
      let d := { d with header := none }
      if c = '\x7b' then (d.enter header, some ⟨r, false⟩)
      else (d.notice (.headerWithoutBrace (String.ofList (c :: r)))).lineIn (c :: r)

/-! ## Reading ends -/

theorem openOrWait_shorter {d : Draft} {header : Block} {line : List Char} {inner : Inner}
    (h : (d.openOrWait header line).2 = some inner) : inner.text.length < line.length := by
  simp only [openOrWait] at h
  split at h
  · simp at h
  · rename_i text htext
    rw [Option.some.injEq] at h
    subst h
    have happ := breakOutside_append (· == '\x7d') none text
    have hlen := afterOutside?_length htext
    rw [← happ, List.length_append] at hlen
    exact Nat.lt_of_le_of_lt (Nat.le_add_right _ _) hlen

theorem topLevelLine_shorter {d : Draft} {line : List Char} {inner : Inner}
    (h : (d.topLevelLine line).2 = some inner) : inner.text.length < line.length := by
  simp only [topLevelLine] at h
  split at h
  · simp only [tableHeader] at h
    split at h <;> exact openOrWait_shorter h
  · split at h
    · have hdrop : (line.drop 3).length ≤ line.length := by simp
      simp only [refDirective] at h
      split at h
      · split at h
        · simp at h
        · exact Nat.lt_of_lt_of_le (openOrWait_shorter h) hdrop
      · exact Nat.lt_of_lt_of_le (openOrWait_shorter h) hdrop
    · split at h
      · simp only [enumHeader] at h
        split at h <;> exact openOrWait_shorter h
      · split at h
        · simp at h
        · split at h
          · exact openOrWait_shorter h
          · split at h <;> simp at h

theorem tableLine_shorter {d : Draft} {t : Table} {spelled : String} {outer : List Block}
    {line : List Char} {inner : Inner} (h : (d.tableLine t spelled outer line).2 = some inner) :
    inner.text.length < line.length := by
  simp only [tableLine] at h
  split at h
  · simp at h
  · split at h
    · exact openOrWait_shorter h
    · split at h
      · split at h
        · exact openOrWait_shorter h
        · simp at h
      · split at h
        · split at h <;> simp at h
        · simp at h

theorem lineIn_shorter {d : Draft} {line : List Char} {inner : Inner}
    (h : (d.lineIn line).2 = some inner) : inner.text.length < line.length := by
  simp only [lineIn] at h
  split at h
  · exact topLevelLine_shorter h
  · simp at h
  · exact tableLine_shorter h
  · split at h <;> simp at h
  · split at h <;> simp at h

theorem step_shorter {d : Draft} {code : List Char} {inner : Inner}
    (h : (d.step code).2 = some inner) : inner.text.length < code.length := by
  have hlen := trim_length_le code
  simp only [step] at h
  split at h
  · simp at h
  · rename_i c r hcode
    rw [hcode] at hlen
    split at h
    · exact Nat.lt_of_lt_of_le (lineIn_shorter h) hlen
    · split at h
      · rw [Option.some.injEq] at h
        subst h
        exact Nat.lt_of_lt_of_le (Nat.lt_succ_self _) hlen
      · exact Nat.lt_of_lt_of_le (lineIn_shorter h) hlen

/-- Reads one line of code, and what stands behind its braces. -/
def read (d : Draft) (code : List Char) : Draft :=
  match h : d.step code with
  | (d', none) => d'
  | (d', some inner) =>
    have : inner.text.length < code.length := step_shorter (by rw [h])
    let d' := d'.read inner.text
    if inner.closes then (d'.step ['\x7d']).1 else d'
termination_by code.length

end Draft

/-! ## Whole texts -/

def draft (text : List Char) : Draft :=
  let (codes, carry) := codeLines .code (lines text)
  (codes.foldl Draft.read .start).finish carry

/-- What a text is as a schema: its schema if it has a table, and what there is to
say about it. -/
def parse (text : String) : Option Schema × List Notice :=
  let d := draft text.toList
  let notices := d.notices.reverse
  if d.catalog.tables.isEmpty then (none, notices)
  else
    let schema := d.schema
    (some schema, notices ++ [.schemaParsed schema.catalog.tables.length schema.references.length
      schema.catalog.enums.length])

end SeedData.Dbml
