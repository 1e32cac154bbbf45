/-
Runs that stop where a step is not defined. The functions of a run give a result everywhere, so
that a number drawn from an empty range and a value past the end of a list are something, too.
Here the same functions are run where each condition that a step relies on is looked at, and the
run stops at one that does not hold: a draw from no numbers, a chance that is not from zero to
one, a place that a list does not have, a remainder by zero, or a number with more digits than a
number is written with. Where runs stop is for `Proofs/GuardedRuns`.

The texts of hints and fillers are drawn as they are, since no schema has a say in them.
-/
import SeedData.Run.Generate

namespace SeedData

/-- Draws that may stop. -/
abbrev Attempt := StateT Keystream Option

namespace Attempt

def stop {α : Type} : Attempt α := fun _ => none

/-- An attempt stops where it relies on what does not hold, and keeps no journal. -/
instance : Filling Attempt where
  draw d := fun s => some (d.run s)
  rely holds := if holds then pure () else stop
  record _ := pure ()
  recordOnce _ _ := pure ()

end Attempt

namespace Guarded

/-- The result of filling the tables of these names, if nothing stops it. -/
def fillTables (job : Job) : List String → Run → Keystream → Option (Except Fault Run)
  | [], run, _ => some (.ok run)
  | name :: rest, run, keystream =>
    match job.catalog.table? name with
    | none => some (.error (.unknownTable name))
    | some table => do
      let filling : StateT Journal Attempt DataTable := job.fillTable run.pools (job.plan table)
      let ((filled, journal), keystream) ← (filling.run (.ofReport run.report)).run keystream
      if filled.isSupported then
        fillTables job rest (run.add job.options job.retained filled journal.report) keystream
      else some (.error .outsideCalendar)

/-- The result of a job, if nothing stops it. -/
def generate (job : Job) : Option (Except Fault Run) :=
  if job.options.isValid then
    fillTables job job.order.tables job.start (Keystream.ofSeed job.options.seed)
  else some (.error (.invalidNullRate job.options.nullRate))

end Guarded
end SeedData
