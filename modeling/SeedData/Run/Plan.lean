/-
How each column of a table gets its values, in two steps. `Source` says where they
come from by the schema and the order of tables alone; `Feed` is what that comes
to once the tables before have been filled. Where a source runs dry, the column
falls short of it (`Shortfall`), which is an issue of the run. Keys run out before any
row is filled; of the others the feed keeps the issue, for the rows to report.
-/
import SeedData.Column.Key
import SeedData.Data.Pools
import SeedData.Order.TableOrder
import SeedData.Prose.Hint
import SeedData.Run.Report

namespace SeedData

/-! ## Sources -/

/-- Where the values of a column come from. -/
inductive Source where
  /-- From a column of another table, unless the foreign key was given up. -/
  | parent (column : ColumnRef) (removed : Bool)
  /-- From earlier rows of the same table, at the place of the column that the
  foreign key names; the table may not have it. -/
  | earlier (column : Option Nat)
  /-- From an attribute of the parent row, or else from the type. -/
  | shared (column : ColumnRef) (type : ColumnType)
  /-- From the ordinal of the row. -/
  | key (type : ColumnType)
  /-- From the type, and from the hint that the name of a text column gives. -/
  | random (type : ColumnType) (hint : Option Hint)
  deriving Repr, Inhabited

/-- The attributes that columns are taken from: of the references from one column
the last counts, and none from a column that is a foreign key. -/
def attributeTargets (keys : ForeignKeys) (attributes : List Reference) :
    SortedMap ColumnRef ColumnRef :=
  SortedMap.ofList ((attributes.filter fun r => !keys.contains r.source).map
    fun r => (r.source, r.target))

/-- What there is to say about references to attributes that do not count. -/
def attributeNotices (keys : ForeignKeys) (attributes : List Reference) : List Notice :=
  (attributes.filter fun r => keys.contains r.source).map fun r => .attributeIsForeignKey r.source

/-- The hint for a random column. -/
def hintFor (column : String) (type : ColumnType) : Option Hint :=
  if type.family = .text then Hint.ofColumn? column else none

/-- Where the values of a column come from. A foreign key comes before an
attribute, and that before a key. -/
def sourceOf (catalog : Catalog) (keys : ForeignKeys) (targets : SortedMap ColumnRef ColumnRef)
    (order : TableOrder) (table : Table) (column : Column) : Source :=
  let type := ColumnType.resolve catalog column.dataType
  match keys.get? ⟨table.name, column.name⟩ with
  | some target =>
    if target.table = table.name then .earlier ((table.columns.map (·.name)).idxOf? target.column)
    else .parent target (order.isRemoved target.table table.name)
  | none =>
    match targets.get? ⟨table.name, column.name⟩ with
    | some target => .shared target type
    | none =>
      if column.isKeyLike || column.settings.isUnique then .key type
      else .random type (hintFor column.name type)

/-! ## Shortfalls -/

/-- How a column falls short of its source. -/
inductive Shortfall where
  /-- There are fewer keys than rows. -/
  | exhausted (base : String) (capacity : Nat) (rows : UInt64)
  /-- There is no value to refer to, and the column stays empty. -/
  | noParent (parent : ColumnRef)
  /-- There is no such column in the table, and this one stays empty. -/
  | noColumn
  /-- There is no attribute to take it from, and the column is filled by its type. -/
  | noAttribute (parent : ColumnRef)
  deriving DecidableEq, Repr

namespace Shortfall

def code : Shortfall → String
  | exhausted _ _ _ => "unique_exhausted"
  | noParent _ => "missing_parent_pool"
  | noColumn => "missing_parent_pool"
  | noAttribute _ => "attribute_fallback"

def message (column : ColumnRef) : Shortfall → String
  | exhausted base capacity rows => "'" ++ column.text ++ "' (" ++ base ++ ") holds "
    ++ toString capacity ++ " distinct values, " ++ toString rows.toNat
    ++ " rows requested; values repeat"
  | noParent parent =>
    "no generated values for " ++ parent.text ++ "; '" ++ column.text ++ "' left null"
  | noColumn => "self reference of '" ++ column.text ++ "' targets an unknown column"
  | noAttribute parent => "no generated values for " ++ parent.text ++ "; '" ++ column.text
    ++ "' synthesized from its type"

def issue (column : ColumnRef) (s : Shortfall) : Issue :=
  .warning s.code (s.message column) (some column.table) (some column.column)

end Shortfall

/-! ## Feeds -/

/-- The values kept of a column, if there are any. -/
def Pools.available? (p : Pools) (column : ColumnRef) : Option (Array Value) :=
  (p.values? column).filter fun pool => !pool.isEmpty

/-- What gives a column its values when its table is filled. -/
inductive Feed where
  /-- Nothing: the column stays empty, which is an issue. -/
  | empty (issue : Issue)
  /-- A value of the pool, whose rows are those of a table. -/
  | sample (table : String) (pool : Array Value)
  /-- The value of an earlier row at the place. -/
  | earlier (column : Nat)
  /-- The value of the pool in the row that was chosen of its table. -/
  | shared (table : String) (pool : Array Value)
  /-- The key of the row. -/
  | key (column : String) (type : ColumnType)
  /-- A random value, which may be an issue. -/
  | random (type : ColumnType) (hint : Option Hint) (issue : Option Issue)

namespace Source

/-- What a source comes to in a table when the pools are these. -/
def feed (pools : Pools) (column : ColumnRef) : Source → Feed
  | parent target removed =>
    match pools.available? target with
    | some pool =>
      if removed then .empty ((Shortfall.noParent target).issue column) else .sample target.table pool
    | none => .empty ((Shortfall.noParent target).issue column)
  | earlier (some place) => .earlier place
  | earlier none => .empty (Shortfall.noColumn.issue column)
  | shared target type =>
    match pools.available? target with
    | some pool =>
      if target.table = column.table then .random type none ((Shortfall.noAttribute target).issue column)
      else .shared target.table pool
    | none => .random type none ((Shortfall.noAttribute target).issue column)
  | key type => .key column.column type
  | random type hint => .random type hint none

/-- The shortfall of keys, if there are fewer than rows. -/
def exhaustion? (rows : UInt64) : Source → Option Shortfall
  | key type =>
    match type.capacity? with
    | some capacity => if capacity < rows.toNat then some (.exhausted type.base capacity rows) else none
    | none => none
  | _ => none

end Source

/-- Whether the keys of so many rows can be written. -/
def Source.canWriteKeys (column : String) (rows : Nat) : Source → Bool
  | key type => (List.range rows).all fun row => type.canWriteKey column (UInt64.ofNat row)
  | _ => true

/-! ## Plans -/

/-- A column and where its values come from. -/
structure PlannedColumn where
  name : String
  source : Source
  deriving Inhabited

/-- A table and where the values of its columns come from. -/
structure TablePlan where
  name : String
  columns : List PlannedColumn
  deriving Inhabited

namespace TablePlan

/-- The address of a column of the table. -/
def address (p : TablePlan) (c : PlannedColumn) : ColumnRef := ⟨p.name, c.name⟩

/-- Whether the keys of the table can be written, if it gets so many rows. -/
def canWriteKeys (p : TablePlan) (rows : UInt64) : Bool :=
  p.columns.all fun c => c.source.canWriteKeys c.name rows.toNat

def feeds (p : TablePlan) (pools : Pools) : List Feed :=
  p.columns.map fun c => c.source.feed pools (p.address c)

/-- The issues of a kind of shortfall, in the order of the columns. -/
def issuesOf (p : TablePlan) (shortfall? : Source → Option Shortfall) : List Issue :=
  p.columns.filterMap fun c => (shortfall? c.source).map (Shortfall.issue (p.address c))

end TablePlan
end SeedData
