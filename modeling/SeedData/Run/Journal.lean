/-
The journal of a table: what filling it adds to the report. Some issues are met again in
every row; these are reported once for each column, so the journal holds which have been.

Rows are filled wherever there are draws and a journal can be kept (`Filling`). Draws by
themselves keep none.
-/
import SeedData.Random.Draw
import SeedData.Run.Report

namespace SeedData

/-- What an issue has to say. -/
def Issue.notice (i : Issue) : Notice := .issue i.code i.table i.column i.message

/-- What has come of filling a table so far. -/
structure Journal where
  report : Report
  notices : List Notice
  /-- The codes of the issues that are reported once, each with the place of its column. -/
  reported : List (String × Nat)

namespace Journal

/-- The journal of a table that has not been begun. -/
def ofReport (report : Report) : Journal := ⟨report, [], []⟩

def record (j : Journal) (issue : Issue) : Journal :=
  { j with report := j.report.record issue, notices := j.notices ++ [issue.notice] }

/-- Records an issue of the column at a place, unless one of its code has been. -/
def recordOnce (j : Journal) (place : Nat) (issue : Issue) : Journal :=
  if (issue.code, place) ∈ j.reported then j
  else { j.record issue with reported := (issue.code, place) :: j.reported }

end Journal

/-- Where rows are filled: random choices are made, and issues recorded. -/
class Filling (m : Type → Type) extends Drawing m where
  record : Issue → m Unit
  /-- Records an issue of the column at a place, unless one of its code has been. -/
  recordOnce : Nat → Issue → m Unit

export Filling (record recordOnce)

instance {m : Type → Type} [Monad m] [Drawing m] : Filling (StateT Journal m) where
  draw d := StateT.lift (draw d)
  rely holds := StateT.lift (rely holds)
  record issue := modify (·.record issue)
  recordOnce place issue := modify (·.recordOnce place issue)

/-- Draws by themselves keep no journal. -/
instance : Filling Draw where
  record _ := pure ()
  recordOnce _ _ := pure ()

end SeedData
