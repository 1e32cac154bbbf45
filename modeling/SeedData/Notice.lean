/-
What a run has to say about its input besides its result: things it could not
use, decisions it took, progress. A notice is its cause; level, message and
fields follow from it.
-/
import SeedData.Json.Value
import SeedData.Text.Literal
import SeedData.Schema.ColumnRef

namespace SeedData

/-- How much a notice matters, most first. -/
inductive Level where
  | warn
  | info
  | debug
  deriving DecidableEq, Repr

namespace Level

/-- The place of the level, the most severe first. -/
def rank : Level → Nat
  | warn => 0
  | info => 1
  | debug => 2

def name : Level → String
  | warn => "WARN"
  | info => "INFO"
  | debug => "DEBUG"

end Level

/-- Something worth saying about a run. -/
inductive Notice where
  | unbalancedBrace (line : String)
  | headerWithoutBrace (line : String)
  | malformedTableHeader (line : String)
  | malformedEnumHeader (line : String)
  | skippingBlock (keyword : String)
  | ignoredLine (line : String)
  | tableParsed (table : String) (columns : Nat)
  | tableRedefined (table : String)
  | columnWithoutName (table line : String)
  | columnWithoutType (table column : String)
  | duplicateColumn (table column : String)
  | malformedReference (relation : String)
  | malformedInlineReference (relation : String)
  | unusableEndpoint (relation : String)
  | manyToMany (relation : String)
  | unterminatedString
  | unterminatedBlock (blocks : Nat)
  | schemaParsed (tables references enums : Nat)
  | targetNotFound (source target : ColumnRef)
  | referencesClassified (foreignKeys attributes unresolved : Nat)
  | targetOverridden (child previous parent : ColumnRef)
  | outsideCatalog (child parent : ColumnRef)
  | cycleBroken (parent child : String)
  | linkNotOrdered (parent child : String)
  | orderResolved (order : List String)
  | planResolved (tables foreignKeys attributes removed unordered : Nat)
  | attributeIsForeignKey (column : ColumnRef)
  | generationStarted (tables : Nat) (rows seed : UInt64)
  | generatingTable (table : String) (rows : UInt64)
  | issue (code : String) (table column : Option String) (message : String)
  | tableGenerated (table : String) (rows : Nat)
  | generationCompleted (tables warnings : Nat)
  deriving Repr

namespace Notice

def level : Notice → Level
  | skippingBlock _ | ignoredLine _ | tableParsed _ _ | referencesClassified _ _ _
  | targetOverridden _ _ _ | outsideCatalog _ _ | linkNotOrdered _ _ | orderResolved _
  | attributeIsForeignKey _ => .debug
  | schemaParsed _ _ _ | planResolved _ _ _ _ _ | generationStarted _ _ _ | generatingTable _ _
  | tableGenerated _ _ | generationCompleted _ _ => .info
  | _ => .warn

def message : Notice → String
  | unbalancedBrace _ => "unbalanced closing brace"
  | headerWithoutBrace _ => "block header without opening brace, ignoring header"
  | malformedTableHeader _ => "malformed table header"
  | malformedEnumHeader _ => "malformed enum header"
  | skippingBlock _ => "skipping block"
  | ignoredLine _ => "ignoring top-level line"
  | tableParsed _ _ => "table parsed"
  | tableRedefined _ => "table defined twice, keeping the later definition"
  | columnWithoutName _ _ => "column without a name"
  | columnWithoutType _ _ => "column without a data type, skipping"
  | duplicateColumn _ _ => "duplicate column, keeping the first definition"
  | malformedReference _ => "malformed reference, skipping"
  | malformedInlineReference _ => "malformed inline reference, skipping"
  | unusableEndpoint _ => "composite or incomplete reference endpoint, skipping"
  | manyToMany _ => "many-to-many reference has no child side, skipping"
  | unterminatedString => "unterminated ''' string at end of schema"
  | unterminatedBlock _ => "unterminated block at end of schema"
  | schemaParsed _ _ _ => "schema parsed"
  | targetNotFound _ _ => "reference target not found, treating as attribute reference"
  | referencesClassified _ _ _ => "references classified"
  | targetOverridden _ _ _ => "foreign key target overridden"
  | outsideCatalog _ _ => "foreign key outside catalog, ignoring"
  | cycleBroken _ _ => "breaking foreign key cycle"
  | linkNotOrdered _ _ => "attribute link would close a cycle, not ordering it"
  | orderResolved _ => "dependency order resolved"
  | planResolved _ _ _ _ _ => "generation plan resolved"
  | attributeIsForeignKey _ => "column is also a foreign key, ignoring attribute reference"
  | generationStarted _ _ _ => "generation started"
  | generatingTable _ _ => "generating table"
  | issue _ _ _ message => message
  | tableGenerated _ _ => "table generated"
  | generationCompleted _ _ => "generation completed"

def count (n : Nat) : Json := .int n

/-- The fields of a notice beside its message. -/
def fields : Notice → List (String × Json)
  | unbalancedBrace line | headerWithoutBrace line | malformedTableHeader line
  | malformedEnumHeader line | ignoredLine line => [("line", .str line)]
  | skippingBlock keyword => [("keyword", .str keyword)]
  | tableParsed table columns => [("table", .str table), ("columns", count columns)]
  | tableRedefined table => [("table", .str table)]
  | columnWithoutName table line => [("table", .str table), ("line", .str line)]
  | columnWithoutType table column | duplicateColumn table column =>
    [("table", .str table), ("column", .str column)]
  | malformedReference relation | malformedInlineReference relation | unusableEndpoint relation
  | manyToMany relation => [("relation", .str relation)]
  | unterminatedString => []
  | unterminatedBlock n => [("open_blocks", count n)]
  | schemaParsed tables references enums =>
    [("tables", count tables), ("references", count references), ("enums", count enums)]
  | targetNotFound source target => [("source", .str source.text), ("target", .str target.text)]
  | referencesClassified foreignKeys attributes unresolved =>
    [("fk_refs", count foreignKeys), ("attribute_refs", count attributes),
      ("unresolved", count unresolved)]
  | targetOverridden child previous parent =>
    [("child", .str child.text), ("previous", .str previous.text), ("parent", .str parent.text)]
  | outsideCatalog child parent => [("child", .str child.text), ("parent", .str parent.text)]
  | cycleBroken parent child | linkNotOrdered parent child =>
    [("parent", .str parent), ("child", .str child)]
  | orderResolved order => [("order", .str (Text.literalList order))]
  | planResolved tables foreignKeys attributes removed unordered =>
    [("tables", count tables), ("foreign_keys", count foreignKeys),
      ("attribute_refs", count attributes), ("removed_edges", count removed),
      ("unordered_attribute_links", count unordered)]
  | attributeIsForeignKey column => [("table", .str column.table), ("column", .str column.column)]
  | generationStarted tables rows seed =>
    [("tables", count tables), ("rows", count rows.toNat), ("seed", count seed.toNat)]
  | generatingTable table rows => [("table", .str table), ("rows", count rows.toNat)]
  | issue code table column _ =>
    [("code", .str code), ("table", .str (table.getD "")), ("column", .str (column.getD ""))]
  | tableGenerated table rows => [("table", .str table), ("rows_generated", count rows)]
  | generationCompleted tables warnings => [("tables", count tables), ("warnings", count warnings)]

/-- The notice as a JSON record of level, message and fields. -/
def toJson (n : Notice) : Json :=
  .obj (("level", .str n.level.name) :: ("message", .str n.message) :: n.fields)

/-- The notices of a level and of those above it. -/
def upTo (level : Level) (notices : List Notice) : List Notice :=
  notices.filter (·.level.rank ≤ level.rank)

end Notice
end SeedData
