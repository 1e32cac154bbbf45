/-
From schema text to data: the text is read, its references are told apart, its
tables are put in order, and then they are filled.
-/
import SeedData.Dbml.Parser
import SeedData.Run.Generate

namespace SeedData

/-- A schema and what follows from it for every run. -/
structure Prepared where
  schema : Schema
  classified : Classification
  keys : ForeignKeys
  order : TableOrder

namespace Prepared

def ofSchema (schema : Schema) : Prepared :=
  let classified := schema.catalog.classify schema.references
  let keys := ForeignKeys.ofReferences classified.foreignKeys
  ⟨schema, classified, keys, orderTables schema.catalog keys classified.attributes⟩

def notices (p : Prepared) : List Notice :=
  classifyNotices p.classified
    ++ overrideNotices SortedMap.empty p.classified.foreignKeys
    ++ orderNotices p.schema.catalog p.keys p.order
    ++ [.planResolved p.order.tables.length p.keys.size p.classified.attributes.length
      p.order.removed.length p.order.unordered.length]

def job (p : Prepared) (options : Options) : Job :=
  ⟨p.schema.catalog, p.keys, p.classified.attributes, p.order, options⟩

end Prepared

/-- The schema that a text writes, made ready, and its run. -/
def generateFromText (text : String) (options : Options) :
    Except Fault (Prepared × Run) × List Notice :=
  match Dbml.parse text with
  | (none, notices) => (.error .noTables, notices)
  | (some schema, notices) =>
    let prepared := Prepared.ofSchema schema
    let (result, later) := (prepared.job options).generate
    (result.map fun run => (prepared, run), notices ++ prepared.notices ++ later)

end SeedData
