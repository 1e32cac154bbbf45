/-
Schemas that are written and read back. `write` puts a schema down table by table, a line
for each column with its name in quotes, and then its references; what reading each of
these lines adds to a draft is one lemma apiece (`read_writeHeader`, `read_writeColumn`,
`read_writeReference`), and together they give back the schema (`parse_write`).
-/
import Mathlib.Tactic.MkIffOfInductiveProp
import SeedData.Proofs.Identifiers
import SeedData.Proofs.Silence
import SeedData.Proofs.Spelling

namespace SeedData

/-- The settings that are words on their own. -/
def Setting.isFlag : Setting → Bool
  | .primaryKey | .notNull | .null | .unique | .increment => true
  | .default _ | .note _ | .extension _ => false

namespace Dbml

open Text

/-! ## Writing -/

/-- Settings with a comma and a blank between each two. -/
def writeTokens (l : List Setting) : List Char := join [',', ' '] (l.map fun s => s.token.toList)

/-- The settings of a column in square brackets, behind a blank, if it has any. -/
def writeSettings (l : List Setting) : List Char :=
  match l with
  | [] => []
  | s :: l => ' ' :: '[' :: (writeTokens (s :: l) ++ [']'])

def writeColumn (c : Column) : List Char :=
  quoted c.name.toList ++ ' ' :: (c.dataType.toList ++ writeSettings c.settings.toList)

def writeHeader (name : String) : List Char :=
  ['T', 'a', 'b', 'l', 'e', ' '] ++ (name.toList ++ [' ', '\x7b'])

def writeTable (t : Table) : List (List Char) :=
  writeHeader t.name :: t.columns.map writeColumn ++ [['\x7d']]

def writeEndpoint (table column : String) : List Char := table.toList ++ '.' :: quoted column.toList

def writeReference (r : Reference) : List Char :=
  ['R', 'e', 'f', ':', ' '] ++ (writeEndpoint r.sourceTable r.sourceColumn ++
    ([' ', '>', ' '] ++ writeEndpoint r.targetTable r.targetColumn))

def writeLines (s : Schema) : List (List Char) :=
  s.catalog.tables.flatMap writeTable ++ s.references.map writeReference

/-- The text of a schema, each line with a line feed behind it. -/
def write (s : Schema) : String := String.ofList ((writeLines s).flatMap (· ++ ['\n']))

/-! ## What can be written -/

/-- A name that double quotes can hold. -/
@[mk_iff]
structure Quotable (name : String) : Prop where
  nonempty : name.toList ≠ []
  trimmed : trim name.toList = name.toList
  unquoted : '"' ∉ name.toList
  oneLine : '\n' ∉ name.toList

@[mk_iff]
structure CanonicalColumn (c : Column) : Prop where
  quotable : Quotable c.name
  typeNonempty : c.dataType.toList ≠ []
  typeChars : c.dataType.toList.all isTypeChar = true
  distinct : c.settings.toList.Nodup
  flags : ∀ s ∈ c.settings.toList, s.isFlag = true

@[mk_iff]
structure CanonicalTable (t : Table) : Prop where
  normal : Identifier.normalize t.name = t.name
  distinct : (t.columns.map (·.name)).Nodup
  columns : ∀ c ∈ t.columns, CanonicalColumn c

/-- A column as a reference names it. In round brackets it would be a list of columns. -/
@[mk_iff]
structure CanonicalEndpoint (table column : String) : Prop where
  normal : Identifier.normalize table = table
  quotable : Quotable column
  single : column.toList.head? ≠ some '('

/-- A schema that `write` spells so that it can be read back. -/
@[mk_iff]
structure Canonical (s : Schema) : Prop where
  nonempty : s.catalog.tables ≠ []
  enums : s.catalog.enums = []
  distinct : (s.catalog.tables.map (·.name)).Nodup
  tables : ∀ t ∈ s.catalog.tables, CanonicalTable t
  sources : ∀ r ∈ s.references, CanonicalEndpoint r.sourceTable r.sourceColumn
  targets : ∀ r ∈ s.references, CanonicalEndpoint r.targetTable r.targetColumn

instance (name : String) : Decidable (Quotable name) := decidable_of_iff' _ (quotable_iff name)

instance (c : Column) : Decidable (CanonicalColumn c) := decidable_of_iff' _ (canonicalColumn_iff c)

instance (t : Table) : Decidable (CanonicalTable t) := decidable_of_iff' _ (canonicalTable_iff t)

instance (table column : String) : Decidable (CanonicalEndpoint table column) :=
  decidable_of_iff' _ (canonicalEndpoint_iff table column)

instance (s : Schema) : Decidable (Canonical s) := decidable_of_iff' _ (canonical_iff s)

/-! ## Settings -/

section Settings

variable {s : Setting} {l : List Setting}

/-- A flag is written in words without marks, and they are read as that flag. -/
theorem token_of_isFlag (h : s.isFlag = true) :
    Setting.parseChars s.token.toList = some s ∧ Draft.inlineText? s.token.toList = none ∧
      trim s.token.toList = s.token.toList ∧ s.token.toList.all (fun c => isBare c && c != ',') = true := by
  cases s with
  | primaryKey | notNull | null | unique | increment => decide +kernel
  | default | note | extension => cases h

theorem spelled_token (h : s.isFlag = true) : Spelled s.token.toList := by
  obtain ⟨-, -, -, hmarks⟩ := token_of_isFlag h
  refine spelled_bare (List.all_eq_true.2 fun c hc => ?_)
  exact (Bool.and_eq_true_iff.1 (List.all_eq_true.1 hmarks c hc)).1

/-- Nothing in a flag is quoted or splits a list of settings. -/
theorem unmarked_token (h : s.isFlag = true) :
    (∀ c ∈ outside none s.token.toList, (c == ',') = false) ∧
      s.token.toList.foldl quoteAfter none = none := by
  obtain ⟨-, -, -, hmarks⟩ := token_of_isFlag h
  have hclass : ∀ c ∈ s.token.toList, isQuote c = false ∧ (c == ',') = false := by
    intro c hc
    have hc := List.all_eq_true.1 hmarks c hc
    simp only [isBare, Bool.and_eq_true, Bool.not_eq_true', bne_iff_ne] at hc
    exact ⟨hc.1.1.2, beq_false_of_ne hc.2⟩
  obtain ⟨hout, hfold⟩ := outside_of_bare fun c hc => (hclass c hc).1
  rw [hout]
  exact ⟨fun c hc => (hclass c hc).2, hfold⟩

theorem writeTokens_cons (s s' : Setting) (l : List Setting) :
    writeTokens (s :: s' :: l) = s.token.toList ++ ',' :: ' ' :: writeTokens (s' :: l) := by
  simp [writeTokens, join, List.intercalate]

theorem spelled_writeTokens (h : ∀ s ∈ l, s.isFlag = true) : Spelled (writeTokens l) := by
  have hcomma : Spelled [',', ' '] := spelled_bare (by decide)
  induction l with
  | nil => exact spelled_bare rfl
  | cons s l ih =>
    have hs := spelled_token (h s List.mem_cons_self)
    have hl := ih fun x hx => h x (List.mem_cons_of_mem s hx)
    cases l with
    | nil => simpa [writeTokens, join] using hs
    | cons s' l =>
      rw [writeTokens_cons]
      exact hs.append (hcomma.append hl)

/-- Behind each comma of a written list of settings a new one starts. -/
theorem trim_splitOutside_writeTokens (hne : l ≠ []) (h : ∀ s ∈ l, s.isFlag = true) :
    (splitOutside (· == ',') none (writeTokens l)).map trim = l.map fun s => s.token.toList := by
  induction l with
  | nil => exact absurd rfl hne
  | cons s l ih =>
    obtain ⟨-, -, htrim, -⟩ := token_of_isFlag (h s List.mem_cons_self)
    obtain ⟨hcomma, hfold⟩ := unmarked_token (h s List.mem_cons_self)
    cases l with
    | nil =>
      have hone : writeTokens [s] = s.token.toList := by simp [writeTokens, join]
      rw [hone, splitOutside_none hcomma, List.map_singleton, htrim]
      rfl
    | cons s' l =>
      have hrest := ih (List.cons_ne_nil s' l) fun x hx => h x (List.mem_cons_of_mem s hx)
      rw [writeTokens_cons, splitOutside_at hcomma hfold (by decide) (by decide), List.map_cons, htrim]
      exact congrArg _ ((map_trim_splitOutside_blank (by decide) (by decide) _).trans hrest)

theorem ofList_of_nodup (h : l.Nodup) : Settings.ofList l = ⟨l⟩ := by
  -- The settings taken over so far stand in front of those that are left.
  have key : ∀ done : List Setting, (done ++ l).Nodup →
      l.foldl Settings.insert ⟨done⟩ = ⟨done ++ l⟩ := by
    clear h
    induction l with
    | nil => simp
    | cons s l ih =>
      intro done hdone
      have hnew : s ∉ done := fun hs => by
        rw [List.nodup_append] at hdone
        exact hdone.2.2 s hs s List.mem_cons_self rfl
      have hinsert : Settings.insert ⟨done⟩ s = ⟨done ++ [s]⟩ := by
        simp [Settings.insert, Settings.contains, hnew]
      rw [List.foldl_cons, hinsert, ih _ (by simpa using hdone), List.append_assoc]
      rfl
  exact key [] h

end Settings

/-! ## Columns -/

section Columns

variable {c : Column} {l : List Setting}

theorem CanonicalColumn.word (h : CanonicalColumn c) : IsWord c.dataType.toList :=
  List.all_eq_true.1 h.typeChars

theorem spelled_writeSettings (h : ∀ s ∈ l, s.isFlag = true) : Spelled (writeSettings l) := by
  have hopen : Spelled [' ', '['] := spelled_bare (by decide)
  have hclose : Spelled [']'] := spelled_bare (by decide)
  cases l with
  | nil => exact spelled_bare rfl
  | cons s l => exact hopen.append ((spelled_writeTokens h).append hclose)

/-- The type and the settings of a column start and end with marks that are no blanks. -/
theorem CanonicalColumn.ends (h : CanonicalColumn c) :
    (∀ ch ∈ (c.dataType.toList ++ writeSettings c.settings.toList).head?, isBlank ch = false) ∧
      ∀ ch ∈ (c.dataType.toList ++ writeSettings c.settings.toList).getLast?, isBlank ch = false := by
  constructor
  · rw [List.head?_append_of_ne_nil _ h.typeNonempty]
    exact h.word.head
  · cases c.settings.toList with
    | nil =>
      rw [writeSettings, List.append_nil]
      exact h.word.last
    | cons s l =>
      rw [writeSettings, ← List.cons_append, ← List.cons_append, ← List.append_assoc, List.getLast?_concat]
      rintro ch ⟨⟩
      decide

theorem CanonicalColumn.codeLine (h : CanonicalColumn c) : CodeLine (writeColumn c) where
  spelled := by
    have hblank : Spelled [' '] := spelled_bare (by decide)
    have hrest := h.word.spelled.append (spelled_writeSettings h.flags)
    exact (spelled_quoted h.quotable.unquoted h.quotable.oneLine).append (hblank.append hrest)
  head := by
    rw [writeColumn, quoted_append]
    rintro ch ⟨⟩
    decide
  last := by
    have hne : c.dataType.toList ++ writeSettings c.settings.toList ≠ [] := by simp [h.typeNonempty]
    rw [writeColumn, List.getLast?_append_cons, List.getLast?_cons_of_ne_nil hne]
    exact h.ends.2

/-- The name of a column ends at the blank behind its quotes. -/
theorem breakOutside_name (h : CanonicalColumn c) : breakOutside isBlank none (writeColumn c) =
    (quoted c.name.toList, ' ' :: (c.dataType.toList ++ writeSettings c.settings.toList)) := by
  obtain ⟨hout, hfold⟩ := outside_quoted h.quotable.unquoted
  exact breakOutside_at (by simp [hout]) hfold (by decide) (by decide) _

/-- A type ends at the bracket before the settings, or with the line. -/
theorem breakOutside_type {x : List Char} (hne : x ≠ []) (h : IsWord x) (l : List Setting) : ∃ type rest,
    breakOutside (· == '[') none (x ++ writeSettings l) = (type, rest) ∧ unquote type = x ∧
      rest.tail?.map Draft.upToBracket = if l = [] then none else some (writeTokens l) := by
  have hmark := h.unmarked (show isTypeChar '[' = false by decide)
  cases l with
  | nil =>
    refine ⟨x, [], ?_, h.unquote, rfl⟩
    rw [writeSettings, List.append_nil]
    exact breakOutside_none hmark
  | cons s l =>
    have hfold := (outside_of_bare h.bare).2
    have hblank : outside none [' '] = [' '] := by simp [outside, isOutside, isQuote]
    have hmarks : ∀ c ∈ outside none (x ++ [' ']), (c == '[') = false := by
      rw [outside_append, hfold, hblank]
      refine List.forall_mem_append.2 ⟨hmark, fun c hc => ?_⟩
      obtain rfl := List.mem_singleton.1 hc
      decide
    have hclosed : (x ++ [' ']).foldl quoteAfter none = none := by
      rw [List.foldl_append, hfold]
      rfl
    have hsplit : x ++ writeSettings (s :: l) = (x ++ [' ']) ++ '[' :: (writeTokens (s :: l) ++ [']']) := by
      simp [writeSettings]
    refine ⟨x ++ [' '], _, hsplit ▸ breakOutside_at hmarks hclosed (by decide) (by decide) _, ?_, ?_⟩
    · have hbare : ∀ c ∈ x ++ [' '], isQuote c = false := by
        refine List.forall_mem_append.2 ⟨h.bare, fun c hc => ?_⟩
        obtain rfl := List.mem_singleton.1 hc
        decide
      have hhead : ∀ c ∈ (x ++ [' ']).head?, isBlank c = false := by
        rw [List.head?_append_of_ne_nil _ hne]
        exact h.head
      rw [unquote_bare hbare, trim, trimLeft_eq_self hhead, trimRight_concat_blank (by decide),
        trimRight_eq_self h.last]
    · rw [if_neg (List.cons_ne_nil s l)]
      simp [Draft.upToBracket]

/-- The parts of a column's line are what it was written from. -/
theorem columnText_writeColumn (h : CanonicalColumn c) : Draft.columnText (writeColumn c) =
    ⟨c.name.toList, c.dataType.toList,
      if c.settings.toList = [] then none else some (writeTokens c.settings.toList)⟩ := by
  obtain ⟨type, rest, htype, hunquote, hsettings⟩ :=
    breakOutside_type h.typeNonempty h.word c.settings.toList
  rw [Draft.columnText, breakOutside_name h]
  dsimp only
  rw [trim_blank_cons (by decide), trim_eq_self h.ends.1 h.ends.2, htype, hunquote, hsettings, quoted,
    unquote_quoted (by decide), h.quotable.trimmed]

theorem settingEntries_written (h : ∀ s ∈ l, s.isFlag = true) :
    Draft.settingEntries (if l = [] then none else some (writeTokens l)) =
      l.map fun s => s.token.toList := by
  by_cases hl : l = []
  · rw [if_pos hl, hl]
    rfl
  · rw [if_neg hl]
    exact trim_splitOutside_writeTokens hl h

theorem columnSettings_written (hdistinct : l.Nodup) (h : ∀ s ∈ l, s.isFlag = true) :
    Draft.columnSettings (l.map fun s => s.token.toList) = ⟨l⟩ := by
  have hkept : ((l.map fun s => s.token.toList).filter fun e => (Draft.inlineText? e).isNone) =
      l.map fun s => s.token.toList := by
    rw [List.filter_eq_self]
    intro e he
    obtain ⟨s, hs, rfl⟩ := List.mem_map.1 he
    rw [(token_of_isFlag (h s hs)).2.1]
    rfl
  have hparsed : (l.map fun s => s.token.toList).filterMap Setting.parseChars = l := by
    rw [List.filterMap_map]
    refine (List.filterMap_congr fun s hs => ?_).trans List.filterMap_some
    exact (token_of_isFlag (h s hs)).1
  rw [Draft.columnSettings, hkept, Settings.ofTokens, hparsed, ofList_of_nodup hdistinct]

theorem inlineTexts_written (h : ∀ s ∈ l, s.isFlag = true) :
    Draft.inlineTexts (l.map fun s => s.token.toList) = [] := by
  rw [Draft.inlineTexts, List.filterMap_map, List.filterMap_eq_nil_iff]
  intro s hs
  rw [Function.comp_apply, (token_of_isFlag (h s hs)).2.1]
  rfl

end Columns

/-! ## Lines -/

section Lines

variable {d : Draft} {line : List Char}

/-- A line that is read as it stands is up to the innermost block. -/
theorem step_of_codeLine (h : CodeLine line) (hne : line ≠ []) (hheader : d.header = none) :
    d.step line = d.lineIn line := by
  cases line with
  | nil => exact absurd rfl hne
  | cons c r => exact Draft.step_of_trim h.trim hheader

/-- In a table a line that starts with a quote is that of a column. -/
theorem tableLine_quote (d : Draft) (t : Table) (spelled : String) (outer : List Block) (r : List Char) :
    d.tableLine t spelled outer ('"' :: r) = (d.columnLine t spelled outer ('"' :: r), none) := by
  have hkeyword : leadingKeyword ('"' :: r) = [] := rfl
  simp [Draft.tableLine, hkeyword]

/-- The line of a new column adds it to its table. -/
theorem read_writeColumn {c : Column} (h : CanonicalColumn c) (hheader : d.header = none) {t : Table}
    {spelled : String} (hnew : c.name ∉ t.columns.map (·.name)) :
    (d.enter (.table t spelled)).read (writeColumn c) =
      d.enter (.table { t with columns := t.columns ++ [c] } spelled) := by
  have hline : writeColumn c =
      '"' :: (c.name.toList ++ '"' :: ' ' :: (c.dataType.toList ++ writeSettings c.settings.toList)) :=
    quoted_append _ _
  have hstep : (d.enter (.table t spelled)).step (writeColumn c) =
      ((d.enter (.table t spelled)).columnLine t spelled d.blocks (writeColumn c), none) := by
    rw [step_of_codeLine (d := d.enter _) h.codeLine (by simp [hline]) hheader, hline]
    exact tableLine_quote _ t spelled d.blocks _
  have hpush : t.pushColumn? ⟨String.ofList c.name.toList, String.ofList c.dataType.toList,
      ⟨c.settings.toList⟩⟩ = some { t with columns := t.columns ++ [c] } := by
    simp only [String.ofList_toList]
    exact Table.pushColumn?_eq_some_iff.2 ⟨hnew, rfl⟩
  rw [Draft.read_of_none hstep, Draft.columnLine, columnText_writeColumn h]
  dsimp only
  rw [settingEntries_written h.flags, columnSettings_written h.distinct h.flags,
    inlineTexts_written h.flags, hpush]
  rw [if_neg (by simp [h.quotable.nonempty]), if_neg (by simp [h.typeNonempty])]
  rfl

/-- The lines of new columns add them to their table, in order. -/
theorem read_writeColumns {columns : List Column} (h : ∀ c ∈ columns, CanonicalColumn c)
    (hheader : d.header = none) {t : Table} {spelled : String}
    (hdistinct : ((t.columns ++ columns).map (·.name)).Nodup) :
    (columns.map writeColumn).foldl Draft.read (d.enter (.table t spelled)) =
      d.enter (.table { t with columns := t.columns ++ columns } spelled) := by
  induction columns generalizing t with
  | nil => simp
  | cons c columns ih =>
    have hnew : c.name ∉ t.columns.map (·.name) := fun hc => by
      rw [List.map_append, List.nodup_append] at hdistinct
      exact hdistinct.2.2 _ hc _ (List.mem_map_of_mem List.mem_cons_self) rfl
    rw [List.map_cons, List.foldl_cons, read_writeColumn (h c List.mem_cons_self) hheader hnew,
      ih (fun c' hc' => h c' (List.mem_cons_of_mem c hc')) (by simpa using hdistinct)]
    simp

/-! ## Tables -/

section Header

variable {name : String}

theorem writeHeader_eq (name : String) :
    writeHeader name = (['T', 'a', 'b', 'l', 'e', ' '] ++ (name.toList ++ [' '])) ++ ['\x7b'] := by
  simp [writeHeader]

theorem isNameChar_of_isTypeChar {c : Char} (h : isTypeChar c = true) : isNameChar c = true := by
  have hbracket : c ≠ '[' := ne_of_class h (by decide)
  have hbrace : c ≠ '\x7b' := ne_of_class h (by decide)
  simp [isNameChar, isBlank_of_isTypeChar h, hbracket, hbrace]

/-- A table's name is taken up to the blank behind it. -/
theorem tableHeader?_writeHeader (h : Identifier.normalize name = name) :
    tableHeader? (writeHeader name) = some (name.toList, none) := by
  have hword := isWord_of_normalize h
  have hne := (Identifier.plain_of_normalize h).1
  have hatoms : takeName (name.toList ++ [' ', '\x7b']) = (name.toList, [' ', '\x7b']) := by
    have hbare : ∀ c ∈ name.toList, quoteCloser c = none ∧ isNameChar c = true := fun c hc =>
      ⟨by simp [quoteCloser, hword.bare c hc], isNameChar_of_isTypeChar (hword c hc)⟩
    rw [takeName, takeAtoms_bare hbare]
    simp [takeAtoms, quoteCloser, isQuote, isNameChar, isBlank]
  have hblank : trimLeft (' ' :: (name.toList ++ [' ', '\x7b'])) = name.toList ++ [' ', '\x7b'] :=
    trimLeft_blank_append (by decide) hne hword.head _
  have hdrop : (writeHeader name).drop 5 = ' ' :: (name.toList ++ [' ', '\x7b']) := rfl
  have hname : nameAfterBlank? ((writeHeader name).drop 5) = some (name.toList, [' ', '\x7b']) := by
    rw [hdrop, nameAfterBlank?, hblank, hatoms]
    simp [isBlank, hne]
  rw [tableHeader?, hname]
  rfl

theorem joinParts_of_normal (h : Identifier.normalize name = name) : joinParts name.toList = name.toList := by
  have hword := isWord_of_normalize h
  rw [joinParts, splitOutside_none (hword.unmarked (by decide)), List.map_singleton, hword.unquote]
  simp [join]

theorem codeLine_writeHeader (h : Identifier.normalize name = name) : CodeLine (writeHeader name) where
  spelled := by
    have hkeyword : Spelled ['T', 'a', 'b', 'l', 'e', ' '] := spelled_bare (by decide)
    have hbrace : Spelled [' ', '\x7b'] := spelled_bare (by decide)
    exact hkeyword.append ((isWord_of_normalize h).spelled.append hbrace)
  head := by
    rintro c ⟨⟩
    decide
  last := by
    rw [writeHeader_eq, List.getLast?_concat]
    rintro c ⟨⟩
    decide

/-- The brace of a header is the last character of its line. -/
theorem afterOutside?_writeHeader (h : Identifier.normalize name = name) :
    afterOutside? (· == '\x7b') (writeHeader name) = some [] := by
  have hname : name.toList.all (fun c => !isQuote c && c != '\x7b') = true := by
    refine List.all_eq_true.2 fun c hc => ?_
    have hbrace : c ≠ '\x7b' := ne_of_class (isWord_of_normalize h c hc) (by decide)
    simp [(isWord_of_normalize h).bare c hc, hbrace]
  have hall : (['T', 'a', 'b', 'l', 'e', ' '] ++ (name.toList ++ [' '])).all
      (fun c => !isQuote c && c != '\x7b') = true := by
    rw [List.all_append, List.all_append, hname]
    rfl
  have hclass : ∀ c ∈ ['T', 'a', 'b', 'l', 'e', ' '] ++ (name.toList ++ [' ']),
      isQuote c = false ∧ (c == '\x7b') = false := by
    intro c hc
    simpa using List.all_eq_true.1 hall c hc
  obtain ⟨hout, hclosed⟩ := outside_of_bare fun c hc => (hclass c hc).1
  have hmark : ∀ c ∈ outside none (['T', 'a', 'b', 'l', 'e', ' '] ++ (name.toList ++ [' '])),
      (c == '\x7b') = false := by
    rw [hout]
    exact fun c hc => (hclass c hc).2
  rw [afterOutside?, writeHeader_eq, breakOutside_at hmark hclosed (by decide) (by decide)]

/-- The header of a table opens its block. -/
theorem read_writeHeader (h : Identifier.normalize name = name) (hblocks : d.blocks = [])
    (hheader : d.header = none) : d.read (writeHeader name) = d.enter (.table ⟨name, []⟩ name) := by
  have hopen : d.openOrWait (.table ⟨name, []⟩ name) (writeHeader name) =
      (d.enter (.table ⟨name, []⟩ name), some ⟨[], false⟩) := by
    rw [Draft.openOrWait, afterOutside?_writeHeader h]
    rfl
  have hkeyword : leadingKeyword (writeHeader name) = "table".toList := rfl
  have hstep : d.step (writeHeader name) = (d.enter (.table ⟨name, []⟩ name), some ⟨[], false⟩) := by
    rw [step_of_codeLine (codeLine_writeHeader h) (List.cons_ne_nil 'T' _) hheader, Draft.lineIn, hblocks]
    dsimp only
    rw [Draft.topLevelLine, if_pos hkeyword, Draft.tableHeader, tableHeader?_writeHeader h]
    dsimp only
    rw [joinParts_of_normal h, String.ofList_toList, h]
    exact hopen
  rw [Draft.read_of_some hstep, if_neg Bool.false_ne_true]
  exact Draft.read_of_none rfl

end Header

theorem codeLine_brace : CodeLine ['\x7d'] where
  spelled := spelled_bare (by decide)
  head := by simp [isBlank]
  last := by simp [isBlank]

/-- The silent draft of these tables and references. -/
def written (tables : List Table) (links : List Link) : Draft := ⟨⟨tables, []⟩, links, [], [], none, []⟩

/-- The lines of a new table add it to the tables. -/
theorem read_writeTable {t : Table} {tables : List Table} {links : List Link} (h : CanonicalTable t)
    (hnew : t.name ∉ tables.map (·.name)) :
    ((writeTable t).foldl Draft.read (written tables links)).silent = written (tables ++ [t]) links := by
  have hcolumns : (t.columns.map writeColumn).foldl Draft.read
      ((written tables links).enter (.table ⟨t.name, []⟩ t.name)) =
        (written tables links).enter (.table t t.name) :=
    read_writeColumns h.columns rfl h.distinct
  have hclose : ((written tables links).enter (.table t t.name)).step ['\x7d'] =
      ((written tables links).addTable t, none) := by
    rw [step_of_codeLine (d := Draft.enter _ _) codeLine_brace (by simp) rfl]
    rfl
  rw [writeTable, List.cons_append, List.foldl_cons, read_writeHeader h.normal rfl rfl,
    List.foldl_append, hcolumns, List.foldl_cons, List.foldl_nil, Draft.read_of_none hclose,
    Draft.addTable_said]
  show written (Catalog.upsertInto t tables) links = _
  rw [Catalog.upsertInto_of_new hnew]

/-- The lines of new tables add them in their order. -/
theorem read_writeTables {added tables : List Table} {links : List Link} (h : ∀ t ∈ added, CanonicalTable t)
    (hdistinct : ((tables ++ added).map (·.name)).Nodup) :
    ((added.flatMap writeTable).foldl Draft.read (written tables links)).silent =
      written (tables ++ added) links := by
  induction added generalizing tables with
  | nil => simp [written, Draft.silent]
  | cons t added ih =>
    have hnew : t.name ∉ tables.map (·.name) := fun ht => by
      rw [List.map_append, List.nodup_append] at hdistinct
      exact hdistinct.2.2 _ ht _ (List.mem_map_of_mem List.mem_cons_self) rfl
    have ht : ((writeTable t).foldl Draft.read (written tables links)).silent =
        (written (tables ++ [t]) links).silent := read_writeTable (h t List.mem_cons_self) hnew
    rw [List.flatMap_cons, List.foldl_append, Draft.foldl_read_eq_of_silent ht,
      ih (fun u hu => h u (List.mem_cons_of_mem t hu)) (by simpa using hdistinct), List.append_assoc]
    rfl

/-! ## References -/

section References

variable {table column : String}

theorem head?_writeEndpoint (h : CanonicalEndpoint table column) :
    ∀ c ∈ (writeEndpoint table column).head?, isBlank c = false := by
  rw [writeEndpoint, List.head?_append_of_ne_nil _ (Identifier.plain_of_normalize h.normal).1]
  exact (isWord_of_normalize h.normal).head

theorem getLast?_writeEndpoint (x : List Char) (table column : String) :
    (x ++ writeEndpoint table column).getLast? = some '"' := by
  have hlast : x ++ writeEndpoint table column =
      (x ++ table.toList ++ '.' :: '"' :: column.toList) ++ ['"'] := by
    simp [writeEndpoint, quoted]
  rw [hlast, List.getLast?_concat]

theorem spelled_writeEndpoint (h : CanonicalEndpoint table column) :
    Spelled (writeEndpoint table column) := by
  have hdot : Spelled ['.'] := spelled_bare (by decide)
  have hcolumn := spelled_quoted h.quotable.unquoted h.quotable.oneLine
  exact (isWord_of_normalize h.normal).spelled.append (hdot.append hcolumn)

/-- The last dotted part of an endpoint is its column, since the dots of a quoted name
stand in quotes. -/
theorem endpoint?_writeEndpoint (h : CanonicalEndpoint table column) :
    endpoint? (writeEndpoint table column) = some ⟨table, column⟩ := by
  have hword := isWord_of_normalize h.normal
  have hlast : ∀ c ∈ (writeEndpoint table column).getLast?, isBlank c = false := by
    rw [← List.nil_append (writeEndpoint table column), getLast?_writeEndpoint]
    rintro c ⟨⟩
    decide
  have hcolumn : ∀ c ∈ outside none (quoted column.toList), (c == '.') = false := by
    simp [(outside_quoted h.quotable.unquoted).1]
  have hparts : (splitOutside (· == '.') none (writeEndpoint table column)).map unquote =
      [table.toList, column.toList] := by
    have hclosed := (outside_of_bare hword.bare).2
    rw [writeEndpoint, splitOutside_at (hword.unmarked (by decide)) hclosed (by decide) (by decide),
      splitOutside_none hcolumn, List.map_cons, List.map_singleton, hword.unquote, quoted,
      unquote_quoted (by decide), h.quotable.trimmed]
  rw [endpoint?, trim_eq_self (head?_writeEndpoint h) hlast, hparts]
  simp [join, h.quotable.nonempty, h.single, (Identifier.plain_of_normalize h.normal).1]

theorem isEndpointChar_of_isPlain {c : Char} (h : Identifier.isPlain c = true) : isEndpointChar c = true := by
  have hplain : (['<', '>', '-', '[', ']'].all fun d => !Identifier.isPlain d) = true := by decide
  have hmarks : ∀ d ∈ ['<', '>', '-', '[', ']'], c ≠ d := fun d hd =>
    ne_of_class h (by simpa using List.all_eq_true.1 hplain d hd)
  simp [isEndpointChar, isBlank_of_isTypeChar (isTypeChar_of_isPlain h), hmarks]

/-- An endpoint is taken as a whole. -/
theorem takeEndpoint_writeEndpoint (h : CanonicalEndpoint table column) (r : List Char) :
    takeEndpoint (writeEndpoint table column ++ r) =
      (writeEndpoint table column ++ (takeEndpoint r).1, (takeEndpoint r).2) := by
  have hplain := (Identifier.plain_of_normalize h.normal).2
  have hbare : ∀ c ∈ table.toList ++ ['.'], endpointCloser c = none ∧ isEndpointChar c = true := by
    refine List.forall_mem_append.2
      ⟨fun c hc => ⟨?_, isEndpointChar_of_isPlain (hplain c hc)⟩, fun c hc => ?_⟩
    · have hround := ne_of_class (hplain c hc) (show Identifier.isPlain '(' = false by decide)
      simp [endpointCloser, quoteCloser, hround, (isWord_of_normalize h.normal).bare c hc]
    · obtain rfl := List.mem_singleton.1 hc
      decide
  have hsplit : writeEndpoint table column ++ r =
      (table.toList ++ ['.']) ++ (quoted column.toList ++ r) := by
    simp [writeEndpoint]
  rw [takeEndpoint, hsplit, takeAtoms_bare hbare, takeAtoms_quoted (by decide) h.quotable.unquoted]
  simp [writeEndpoint, takeEndpoint]

end References

/-- A reference as its line spells it. -/
def spelledLink (r : Reference) : Link :=
  ⟨⟨r.sourceTable, r.sourceColumn⟩, ⟨r.targetTable, r.targetColumn⟩⟩

section Relation

variable {r : Reference}

/-- What stands behind the colon of a reference's line. -/
def relationText (r : Reference) : List Char :=
  ' ' :: (writeEndpoint r.sourceTable r.sourceColumn ++
    ' ' :: '>' :: ' ' :: writeEndpoint r.targetTable r.targetColumn)

theorem writeReference_eq (r : Reference) :
    writeReference r = 'R' :: 'e' :: 'f' :: ':' :: relationText r := rfl

theorem codeLine_writeReference (hs : CanonicalEndpoint r.sourceTable r.sourceColumn)
    (ht : CanonicalEndpoint r.targetTable r.targetColumn) : CodeLine (writeReference r) where
  spelled := by
    have hkeyword : Spelled ['R', 'e', 'f', ':', ' '] := spelled_bare (by decide)
    have hmark : Spelled [' ', '>', ' '] := spelled_bare (by decide)
    exact hkeyword.append ((spelled_writeEndpoint hs).append (hmark.append (spelled_writeEndpoint ht)))
  head := by
    rintro c ⟨⟩
    decide
  last := by
    have hlast : (writeReference r).getLast? = some '"' := by
      rw [writeReference, ← List.append_assoc, ← List.append_assoc, getLast?_writeEndpoint]
    rw [hlast]
    rintro c ⟨⟩
    decide

theorem relation?_relationText (hs : CanonicalEndpoint r.sourceTable r.sourceColumn)
    (ht : CanonicalEndpoint r.targetTable r.targetColumn) :
    relation? (relationText r) = some (writeEndpoint r.sourceTable r.sourceColumn, .leftIsChild,
      writeEndpoint r.targetTable r.targetColumn) := by
  have hne : ∀ table column, writeEndpoint table column ≠ [] := by simp [writeEndpoint]
  have hblank : ∀ {table column : String}, CanonicalEndpoint table column → ∀ x,
      trimLeft (' ' :: (writeEndpoint table column ++ x)) = writeEndpoint table column ++ x :=
    fun h x => trimLeft_blank_append (by decide) (hne _ _) (head?_writeEndpoint h) x
  have hstop : ∀ x, takeEndpoint (' ' :: x) = ([], ' ' :: x) := by
    intro x
    simp [takeEndpoint, takeAtoms, endpointCloser, quoteCloser, isQuote, isEndpointChar, isBlank]
  have hsource : takeEndpoint (trimLeft (relationText r)) = (writeEndpoint r.sourceTable r.sourceColumn,
      ' ' :: '>' :: ' ' :: writeEndpoint r.targetTable r.targetColumn) := by
    rw [relationText, hblank hs, takeEndpoint_writeEndpoint hs, hstop, List.append_nil]
  have hmark : takeMark? (trimLeft (' ' :: '>' :: ' ' :: writeEndpoint r.targetTable r.targetColumn)) =
      some (.leftIsChild, ' ' :: writeEndpoint r.targetTable r.targetColumn) := rfl
  have htarget : takeEndpoint (trimLeft (' ' :: writeEndpoint r.targetTable r.targetColumn)) =
      (writeEndpoint r.targetTable r.targetColumn, []) := by
    have htake := takeEndpoint_writeEndpoint ht []
    rw [List.append_nil] at htake
    rw [← List.append_nil (writeEndpoint r.targetTable r.targetColumn), hblank ht, List.append_nil, htake]
    simp [takeEndpoint, takeAtoms]
  have htail : isSettingsTail [] = true := rfl
  simp [relation?, hsource, hmark, htarget, hne, htail]

/-- The line of a reference adds it to those that there are. -/
theorem read_writeReference (hs : CanonicalEndpoint r.sourceTable r.sourceColumn)
    (ht : CanonicalEndpoint r.targetTable r.targetColumn) (tables : List Table) (links : List Link) :
    (written tables links).read (writeReference r) = written tables (links ++ [spelledLink r]) := by
  have hkeyword : leadingKeyword (writeReference r) = "ref".toList := rfl
  have hdirective : (written tables links).refDirective (':' :: relationText r) =
      ((written tables links).relation (relationText r), none) := by
    rw [Draft.refDirective, breakOutside_here (by decide) (by decide)]
    rfl
  have hrelation : (written tables links).relation (relationText r) =
      written tables (links ++ [spelledLink r]) := by
    rw [Draft.relation, relation?_relationText hs ht]
    dsimp only
    rw [endpoint?_writeEndpoint hs, endpoint?_writeEndpoint ht]
    rfl
  refine Draft.read_of_none ?_
  rw [step_of_codeLine (codeLine_writeReference hs ht) (List.cons_ne_nil 'R' _) rfl]
  show (written tables links).topLevelLine (writeReference r) = _
  rw [Draft.topLevelLine, hkeyword, if_neg (by decide), if_pos rfl, writeReference_eq]
  show (written tables links).refDirective (':' :: relationText r) = _
  rw [hdirective, hrelation]

theorem read_writeReferences {references : List Reference}
    (hs : ∀ r ∈ references, CanonicalEndpoint r.sourceTable r.sourceColumn)
    (ht : ∀ r ∈ references, CanonicalEndpoint r.targetTable r.targetColumn) (tables : List Table)
    (links : List Link) :
    (references.map writeReference).foldl Draft.read (written tables links) =
      written tables (links ++ references.map spelledLink) := by
  induction references generalizing links with
  | nil => simp
  | cons r references ih =>
    rw [List.map_cons, List.foldl_cons,
      read_writeReference (hs r List.mem_cons_self) (ht r List.mem_cons_self),
      ih (fun r' hr' => hs r' (List.mem_cons_of_mem r hr'))
        (fun r' hr' => ht r' (List.mem_cons_of_mem r hr'))]
    simp

end Relation

end Lines

/-! ## Whole schemas -/

theorem codeLine_of_mem_writeLines {s : Schema} (h : Canonical s) {line : List Char}
    (hline : line ∈ writeLines s) : CodeLine line := by
  rcases List.mem_append.1 hline with hline | hline
  · obtain ⟨t, ht, hline⟩ := List.mem_flatMap.1 hline
    have htable := h.tables t ht
    rcases List.mem_append.1 hline with hline | hline
    · rcases List.mem_cons.1 hline with rfl | hline
      · exact codeLine_writeHeader htable.normal
      · obtain ⟨c, hc, rfl⟩ := List.mem_map.1 hline
        exact (htable.columns c hc).codeLine
    · obtain rfl := List.mem_singleton.1 hline
      exact codeLine_brace
  · obtain ⟨r, hr, rfl⟩ := List.mem_map.1 hline
    exact codeLine_writeReference (h.sources r hr) (h.targets r hr)

/-- Reading a written schema comes to its tables and its references, as they are spelled. -/
theorem draft_write {s : Schema} (h : Canonical s) :
    (draft (write s).toList).silent = written s.catalog.tables (s.references.map spelledLink) := by
  have htables : ((s.catalog.tables.flatMap writeTable).foldl Draft.read (written [] [])).silent =
      (written ([] ++ s.catalog.tables) []).silent := read_writeTables h.tables h.distinct
  have hlines : ((writeLines s).foldl Draft.read (written [] [])).silent =
      (written s.catalog.tables (s.references.map spelledLink)).silent := by
    rw [writeLines, List.foldl_append, Draft.foldl_read_eq_of_silent htables,
      read_writeReferences h.sources h.targets]
    rfl
  rw [draft, write, String.toList_ofList,
    codeLines_flatMap fun line hline => codeLine_of_mem_writeLines h hline]
  dsimp only
  exact Draft.finish_eq_of_silent hlines .code

theorem reference_spelledLink {tables : List Table} {links : List Link} {r : Reference}
    (hs : CanonicalEndpoint r.sourceTable r.sourceColumn)
    (ht : CanonicalEndpoint r.targetTable r.targetColumn) :
    (written tables links).reference (spelledLink r) = r := by
  have hresolve : ∀ name, Identifier.normalize name = name → (written tables links).resolve name = name :=
    fun name h => h
  rw [Draft.reference, spelledLink, hresolve _ hs.normal, hresolve _ ht.normal]

theorem schema_written {s : Schema} (h : Canonical s) :
    (written s.catalog.tables (s.references.map spelledLink)).schema = s := by
  have hreferences : (s.references.map spelledLink).map
      (written s.catalog.tables (s.references.map spelledLink)).reference = s.references := by
    rw [List.map_map]
    refine (List.map_congr_left fun r hr => ?_).trans (List.map_id _)
    exact reference_spelledLink (h.sources r hr) (h.targets r hr)
  obtain ⟨⟨tables, enums⟩, references⟩ := s
  obtain rfl : enums = [] := h.enums
  exact congrArg (Schema.mk ⟨tables, []⟩) hreferences

/-- **A schema that is written is read back as it was**: the same tables, with the same
columns and settings, and the same references, all in their order. -/
theorem parse_write {s : Schema} (h : Canonical s) : (parse (write s)).1 = some s := by
  have hdraft : (draft (write s).toList).silent =
      (written s.catalog.tables (s.references.map spelledLink)).silent := draft_write h
  have hne : ¬ s.catalog.tables.isEmpty := by simp [h.nonempty]
  rw [parse_of_silent hdraft]
  show (if s.catalog.tables.isEmpty then none else some (written _ _).schema) = _
  rw [if_neg hne, schema_written h]

/-! ## Accounts and their entries -/

/-- A table with an awkward column, which refers to another. -/
def ledger : Schema :=
  ⟨⟨[⟨"ref", [⟨"id", "int", ⟨[.primaryKey]⟩⟩]⟩,
      ⟨"entries", [⟨"to.[a] // \x7b'", "decimal(9,2)", ⟨[.notNull, .unique]⟩⟩]⟩], []⟩,
    [⟨"entries", "to.[a] // \x7b'", "ref", "id"⟩]⟩

example : write ledger = "Table ref \x7b\n\"id\" int [pk]\n\x7d\nTable entries \x7b\n" ++
    "\"to.[a] // \x7b'\" decimal(9,2) [not null, unique]\n\x7d\n" ++
    "Ref: entries.\"to.[a] // \x7b'\" > ref.\"id\"\n" := by decide +kernel

theorem ledger_reads_back : (parse (write ledger)).1 = some ledger := parse_write (by decide +kernel)

end Dbml
end SeedData
