/-
Table files: a line of column names, then a line for each row, with commas between
the fields. A field that could be misread stands in quotes, and a quote inside it
is written twice.
-/
import SeedData.Data.Dataset

namespace SeedData
namespace Csv

/-- Whether a character ends a field, a line or a quotation. -/
def isSpecial (c : Char) : Bool := c == ',' || c == '"' || c == '\r' || c == '\n'

/-- The text with each quote written twice. -/
def doubleQuotes : List Char → List Char
  | [] => []
  | c :: r => if c = '"' then '"' :: '"' :: doubleQuotes r else c :: doubleQuotes r

def quoted (s : List Char) : List Char := '"' :: doubleQuotes s ++ ['"']

/-- A field as it is written: in quotes if it has a special character. -/
def field (s : List Char) : List Char := if s.any isSpecial then quoted s else s

/-- The line of a record. One that would be empty is a pair of quotes. -/
def record (fields : List (List Char)) : List Char :=
  let line := Text.join [','] (fields.map field)
  (if line.isEmpty then quoted [] else line) ++ ['\n']

def byteCount (s : List Char) : Nat := s.foldl (fun n c => n + c.utf8Size) 0

end Csv

namespace DataTable

/-- The fields of a row: the text of each column's value, and nothing for a column
that the row does not reach. -/
def fields (t : DataTable) (row : List Value) : List String :=
  t.columns.mapIdx fun i _ => (row[i]?.map Value.csv).getD ""

/-- The records of the table: the names of its columns, and its rows. -/
def records (t : DataTable) : List (List String) := t.columns :: t.rows.toList.map t.fields

def csvLines (t : DataTable) : List (List Char) :=
  t.records.map fun r => Csv.record (r.map String.toList)

def csv (t : DataTable) : String := String.ofList t.csvLines.flatten

/-- How many bytes the table's file has, counted line by line. -/
def csvSize (t : DataTable) : Nat :=
  t.csvLines.foldl (fun n line => n + Csv.byteCount line) 0

end DataTable
end SeedData
