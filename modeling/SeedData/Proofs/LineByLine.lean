/-
A text line by line. The schema of a text follows from the draft and what is open after its first lines, and
the lines behind them (`parse_of_lines`). Reading takes one of these at a time (`schemaAfter_cons`), and
drafts that are the same when silent come to the same schema (`schemaAfter_congr`).
-/
import SeedData.Proofs.Layout

namespace SeedData.Dbml

open Text

/-- What is open after the first lines of a text. -/
def carryAfter (before : List (List Char)) : Carry := (codeLines .code before).2

/-- The draft after the first lines of a text. -/
def draftAfter (before : List (List Char)) : Draft := (codeLines .code before).1.foldl Draft.read .start

namespace Draft

variable {d e : Draft}

/-- The schema that reading comes to, if to any, from a draft and what is open in front of the last lines of
a text. -/
def schemaAfter (d : Draft) (carry : Carry) (rest : List (List Char)) : Option Schema :=
  let (codes, last) := codeLines carry rest
  let e := (codes.foldl read d).finish last
  if e.catalog.tables.isEmpty then none else some e.schema

theorem schemaAfter_cons (d : Draft) (carry : Carry) (line : List Char) (rest : List (List Char)) :
    d.schemaAfter carry (line :: rest) =
      (d.read (codeFrom carry.mode line).1).schemaAfter (codeFrom carry.mode line).2 rest := rfl

/-- Drafts that are the same when silent come to the same schema. -/
theorem schemaAfter_congr (h : d.silent = e.silent) (carry : Carry) (rest : List (List Char)) :
    d.schemaAfter carry rest = e.schemaAfter carry rest := by
  have hend := finish_eq_of_silent (foldl_read_eq_of_silent h (codeLines carry rest).1) (codeLines carry rest).2
  have hcatalog := apply_eq_of_silent (f := Draft.catalog) (fun _ => rfl) hend
  have hschema := apply_eq_of_silent (f := Draft.schema) (fun _ => rfl) hend
  rw [schemaAfter, schemaAfter]
  dsimp only
  rw [hcatalog, hschema]

end Draft

/-- A text is the schema that its first lines and the lines behind them come to. -/
theorem parse_of_lines {text : String} {before rest : List (List Char)}
    (h : lines text.toList = before ++ rest) :
    (parse text).1 = (draftAfter before).schemaAfter (carryAfter before) rest := by
  have hdraft : draft text.toList =
      ((codeLines (carryAfter before) rest).1.foldl Draft.read (draftAfter before)).finish
        (codeLines (carryAfter before) rest).2 := by
    rw [draft, h]
    dsimp only
    rw [codeLines_append, List.foldl_append]
    rfl
  rw [parse_of_silent (congrArg Draft.silent hdraft)]
  rfl

end SeedData.Dbml
