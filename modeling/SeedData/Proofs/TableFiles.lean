/-
Table files read back. `Csv.read?` is a reader of records that knows nothing of tables: commas stand
between fields, a line feed ends each record, and a field in quotes may hold any characters, a quote
written twice. It refuses all else, a quote or a carriage return outside quotes included.

`table_file_reads_back`: the file of a table is the record of its columns and one for each row, and
has as many bytes as were counted.
-/
import SeedData.Data.Csv

namespace SeedData
namespace Csv

/-! ## Reading records -/

/-- Where a reader of records is. -/
inductive Place where
  /-- Before the first character of a field. -/
  | atStart
  /-- In a field without quotes. -/
  | bare
  /-- Between the quotes of a field. -/
  | quoted
  /-- Behind a quote that ends the field, unless it is the first of two. -/
  | behindQuote
  deriving DecidableEq, Repr

/-- A reader of records, with what it has read. -/
structure Reader where
  /-- The records that have ended. -/
  records : List (List String)
  /-- The fields that have ended, of the record being read. -/
  fields : List String
  /-- The characters of the field being read. -/
  field : List Char
  place : Place
  deriving DecidableEq, Repr

namespace Reader

/-- A reader before the first character of a field. -/
def before (records : List (List String)) (fields : List String) : Reader := ⟨records, fields, [], .atStart⟩

/-- Takes a character into the field. -/
def keep (r : Reader) (place : Place) (c : Char) : Reader := { r with field := r.field ++ [c], place }

def endField (r : Reader) : Reader := before r.records (r.fields ++ [String.ofList r.field])

def endRecord (r : Reader) : Reader := before (r.records ++ [r.fields ++ [String.ofList r.field]]) []

/-- Reads the character behind a field. -/
def separate (r : Reader) (c : Char) : Option Reader :=
  if c = ',' then some r.endField else if c = '\n' then some r.endRecord else none

/-- Reads a character of a field without quotes, or the one behind it. -/
def stepBare (r : Reader) (c : Char) : Option Reader :=
  if isSpecial c then r.separate c else some (r.keep .bare c)

def step (r : Reader) (c : Char) : Option Reader :=
  match r.place with
  | .atStart => if c = '"' then some { r with place := .quoted } else r.stepBare c
  | .bare => r.stepBare c
  | .quoted => if c = '"' then some { r with place := .behindQuote } else some (r.keep .quoted c)
  | .behindQuote => if c = '"' then some (r.keep .quoted c) else r.separate c

def run (r : Reader) (s : List Char) : Option Reader := s.foldlM step r

end Reader

/-- The records that a text writes, if it is a sequence of records. -/
def read? (text : String) : Option (List (List String)) := do
  let r ← (Reader.before [] []).run text.toList
  if r = .before r.records [] then some r.records else none

/-! ## Reading what was written -/

namespace Reader

variable {r r' : Reader} {records lines : List (List String)} {fields line : List String}

theorem run_append {s : List Char} (h : r.run s = some r') (rest : List Char) :
    r.run (s ++ rest) = r'.run rest := by
  rw [run] at h
  rw [run, List.foldlM_append, h]
  rfl

theorem run_cons {c : Char} (h : r.step c = some r') (rest : List Char) :
    r.run (c :: rest) = r'.run rest := by
  rw [run, List.foldlM_cons, h]
  rfl

theorem step_comma (h : r.place ≠ .quoted) : r.step ',' = some r.endField := by
  cases hp : r.place <;> simp_all [step, stepBare, isSpecial, separate]

theorem step_lineFeed (h : r.place ≠ .quoted) : r.step '\n' = some r.endRecord := by
  cases hp : r.place <;> simp_all [step, stepBare, isSpecial, separate]

/-- Between quotes all characters are taken, and two quotes for one. -/
theorem run_doubleQuotes (h : r.place = .quoted) (s : List Char) :
    r.run (doubleQuotes s) = some { r with field := r.field ++ s } := by
  induction s generalizing r with
  | nil => simp [doubleQuotes, run]
  | cons c s ih =>
    have htaken : (r.keep .quoted c).run (doubleQuotes s) = some { r with field := r.field ++ c :: s } := by
      rw [ih rfl]
      simp [keep, h]
    rw [doubleQuotes]
    split
    · rename_i hc
      subst hc
      have hfirst : r.step '"' = some { r with place := .behindQuote } := by simp [step, h]
      rw [run_cons hfirst, ← htaken]
      exact run_cons (by simp [step, keep]) _
    · rename_i hc
      have hstep : r.step c = some (r.keep .quoted c) := by simp [step, h, hc]
      rw [run_cons hstep, htaken]

theorem run_quoted (records : List (List String)) (fields : List String) (s : List Char) :
    (before records fields).run (quoted s) = some ⟨records, fields, s, .behindQuote⟩ := by
  have hopened : (before records fields).step '"' = some ⟨records, fields, [], .quoted⟩ := rfl
  rw [quoted, List.cons_append, run_cons hopened, run_append (run_doubleQuotes rfl s)]
  rfl

theorem run_bare {s : List Char} (h : r.place = .bare) (hs : ∀ c ∈ s, isSpecial c = false) :
    r.run s = some { r with field := r.field ++ s } := by
  induction s generalizing r with
  | nil => simp [run]
  | cons c s ih =>
    have hstep : r.step c = some (r.keep .bare c) := by
      simp [step, h, stepBare, hs c List.mem_cons_self]
    rw [run_cons hstep, ih rfl fun d hd => hs d (List.mem_cons_of_mem c hd)]
    simp [keep, h]

/-- A written field is read, and then it can end. -/
theorem run_field (records : List (List String)) (fields : List String) (s : List Char) :
    ∃ place ≠ .quoted, (before records fields).run (Csv.field s) = some ⟨records, fields, s, place⟩ := by
  rw [Csv.field]
  split
  · exact ⟨.behindQuote, by decide, run_quoted records fields s⟩
  · rename_i hs
    have hplain : ∀ c ∈ s, isSpecial c = false := by simpa using hs
    cases s with
    | nil => exact ⟨.atStart, by decide, rfl⟩
    | cons c s =>
      have hc := hplain c List.mem_cons_self
      have hquote : c ≠ '"' := by
        rintro rfl
        cases hc
      have hstep : (before records fields).step c = some ⟨records, fields, [c], .bare⟩ := by
        simp [step, before, stepBare, hc, hquote, keep]
      refine ⟨.bare, by decide, ?_⟩
      rw [run_cons hstep, run_bare rfl fun d hd => hplain d (List.mem_cons_of_mem c hd)]
      rfl

/-- Fields with commas between them and a line feed behind them are read as a record. -/
theorem run_line (records : List (List String)) (fields : List String) (h : line ≠ []) :
    (before records fields).run (Text.join [','] (line.map fun f => Csv.field f.toList) ++ ['\n']) =
      some (before (records ++ [fields ++ line]) []) := by
  induction line generalizing fields with
  | nil => exact absurd rfl h
  | cons f line ih =>
    obtain ⟨place, hplace, hrun⟩ := run_field records fields f.toList
    cases line with
    | nil =>
      rw [List.map_singleton, Text.join, List.intercalate_singleton, run_append hrun,
        run_cons (step_lineFeed hplace)]
      simp [run, endRecord]
    | cons g line =>
      rw [List.map_cons, List.map_cons, Text.join, List.intercalate_cons_cons, List.append_assoc,
        List.append_assoc, run_append hrun, List.singleton_append, run_cons (step_comma hplace)]
      have hrest := ih (fields ++ [f]) (List.cons_ne_nil g line)
      simpa [endField, Text.join] using hrest

theorem run_record (records : List (List String)) (h : line ≠ []) :
    (before records []).run (record (line.map String.toList)) = some (before (records ++ [line]) []) := by
  have hline := run_line records [] h
  rw [record, List.map_map]
  split
  · -- An empty line would be read as one empty field, and so is the pair of quotes in its place.
    rename_i hempty
    have hnil : Text.join [','] (line.map fun f => Csv.field f.toList) = [] := List.isEmpty_iff.1 hempty
    rw [hnil] at hline
    rw [run_append (run_quoted records [] [])]
    exact hline
  · exact hline

theorem run_records (records : List (List String)) (h : ∀ line ∈ lines, line ≠ []) :
    (before records []).run (lines.map fun line => record (line.map String.toList)).flatten =
      some (before (records ++ lines) []) := by
  induction lines generalizing records with
  | nil =>
    rw [List.append_nil]
    rfl
  | cons line lines ih =>
    rw [List.map_cons, List.flatten_cons, run_append (run_record records (h line List.mem_cons_self)),
      ih _ fun l hl => h l (List.mem_cons_of_mem line hl), List.append_assoc, List.singleton_append]

end Reader

/-- Written records are read as they are. -/
theorem read?_records {lines : List (List String)} (h : ∀ line ∈ lines, line ≠ []) :
    read? (String.ofList (lines.map fun line => record (line.map String.toList)).flatten) = some lines := by
  rw [read?, String.toList_ofList, Reader.run_records [] h]
  exact if_pos rfl

/-! ## Counting bytes -/

theorem byteCount_eq (s : List Char) : byteCount s = (String.ofList s).utf8ByteSize := by
  have hfrom : ∀ n, s.foldl (fun n c => n + c.utf8Size) n = n + (String.ofList s).utf8ByteSize := by
    induction s with
    | nil => simp
    | cons c s ih =>
      intro n
      rw [List.foldl_cons, ih, String.ofList_cons, String.utf8ByteSize_append,
        String.utf8ByteSize_singleton, Nat.add_assoc]
  rw [byteCount, hfrom, Nat.zero_add]

theorem foldl_byteCount (lines : List (List Char)) (n : Nat) :
    lines.foldl (fun n line => n + byteCount line) n = n + (String.ofList lines.flatten).utf8ByteSize := by
  induction lines generalizing n with
  | nil => simp
  | cons line lines ih =>
    rw [List.foldl_cons, ih, byteCount_eq, List.flatten_cons, String.ofList_append,
      String.utf8ByteSize_append, Nat.add_assoc]

end Csv

namespace DataTable

variable (t : DataTable) (row : List Value)

theorem length_fields : (t.fields row).length = t.columns.length := by simp [fields]

/-- The field of a row in a column, empty if the row does not reach it. -/
theorem getElem?_fields {k : Nat} (h : k < t.columns.length) :
    (t.fields row)[k]? = some (match row[k]? with
      | some v => v.csv
      | none => "") := by
  simp only [fields, List.getElem?_mapIdx, List.getElem?_eq_getElem h, Option.map_some]
  cases row[k]? <;> rfl

theorem csvSize_eq : t.csvSize = t.csv.utf8ByteSize := by
  rw [csvSize, Csv.foldl_byteCount, Nat.zero_add, csv]

theorem read?_csv (h : t.columns ≠ []) : Csv.read? t.csv = some t.records := by
  refine Csv.read?_records fun line hline => ?_
  rcases List.mem_cons.1 hline with rfl | hline
  · exact h
  · obtain ⟨row, -, rfl⟩ := List.mem_map.1 hline
    rw [← List.length_pos_iff, length_fields, List.length_pos_iff]
    exact h

end DataTable

/-- **A table file holds its table.** Read as records, it is a record of the column names and then
one for each row, with as many fields as there are columns: the text of the row's value, or nothing
where the row has none. The bytes counted are those of the file. -/
theorem table_file_reads_back (t : DataTable) (h : t.columns ≠ []) :
    (∃ lines, Csv.read? t.csv = some (t.columns :: lines) ∧ lines.length = t.rows.size ∧
      ∀ r (hr : r < t.rows.size), ∃ fields, lines[r]? = some fields ∧ fields.length = t.columns.length ∧
        ∀ k < t.columns.length, fields[k]? = some (match t.rows[r][k]? with
          | some v => v.csv
          | none => "")) ∧
    t.csvSize = t.csv.utf8ByteSize := by
  refine ⟨⟨t.rows.toList.map t.fields, t.read?_csv h, by simp, fun r hr => ?_⟩, t.csvSize_eq⟩
  exact ⟨t.fields t.rows[r], by simp [hr], t.length_fields _, fun k hk => t.getElem?_fields _ hk⟩

/-- A table of one column with a row that is empty, one that has nothing, and one that goes on. -/
def remarks : DataTable :=
  ⟨"remarks", ["said, \"by\""], #[[.null], [], [.text "one,\r\n\"two\"", .int 7]]⟩

theorem remarks_read_back : remarks.columns ≠ [] ∧
    (∃ lines, Csv.read? remarks.csv = some (["said, \"by\""] :: lines) ∧ lines.length = 3 ∧
      (∃ fields, lines[0]? = some fields ∧ fields.length = 1 ∧ fields[0]? = some "") ∧
      (∃ fields, lines[1]? = some fields ∧ fields.length = 1 ∧ fields[0]? = some "") ∧
      ∃ fields, lines[2]? = some fields ∧ fields.length = 1 ∧ fields[0]? = some "one,\r\n\"two\"") ∧
    remarks.csvSize = remarks.csv.utf8ByteSize := by
  have hcolumns : remarks.columns ≠ [] := by decide
  obtain ⟨⟨lines, hread, hlength, hlines⟩, hsize⟩ := table_file_reads_back remarks hcolumns
  obtain ⟨empty, hempty, hemptyLength, hemptyField⟩ := hlines 0 (by decide)
  obtain ⟨short, hshort, hshortLength, hshortField⟩ := hlines 1 (by decide)
  obtain ⟨long, hlong, hlongLength, hlongField⟩ := hlines 2 (by decide)
  exact ⟨hcolumns, ⟨lines, hread, hlength, ⟨empty, hempty, hemptyLength, hemptyField 0 (by decide)⟩,
    ⟨short, hshort, hshortLength, hshortField 0 (by decide)⟩,
    ⟨long, hlong, hlongLength, hlongField 0 (by decide)⟩⟩, hsize⟩

end SeedData
