/-
Orders of tables as JSON. The references that were not followed are left out if
there are none.
-/
import SeedData.Json.Decode
import SeedData.Order.TableOrder

namespace SeedData

def Edge.toJson (e : Edge) : Json := .obj [("parent", .str e.parent), ("child", .str e.child)]

def Edge.ofJson? (v : Json) : Option Edge := do
  let [parent, child] ← v.fields? ["parent", "child"] | none
  return ⟨← (← parent).str?, ← (← child).str?⟩

def ColumnRef.toJson (a : ColumnRef) : Json :=
  .obj [("table", .str a.table), ("column", .str a.column)]

def ColumnRef.ofJson? (v : Json) : Option ColumnRef := do
  let [table, column] ← v.fields? ["table", "column"] | none
  return ⟨← (← table).str?, ← (← column).str?⟩

def OrderSummary.toJson (s : OrderSummary) : Json :=
  .obj [("nodes", .int s.nodes.toNat), ("edges", .int s.edges.toNat)]

/-- The size of a graph that a JSON value is. -/
def OrderSummary.ofJson? (v : Json) : Option OrderSummary := do
  let [nodes, edges] ← v.fields? ["nodes", "edges"] | none
  return ⟨← (← nodes).word?, ← (← edges).word?⟩

def TableOrder.toJson (o : TableOrder) : Json :=
  .obj ([("summary", o.summary.toJson), ("order", .arr (o.tables.map .str)),
    ("removed_edges", .arr (o.removed.map Edge.toJson)),
    ("self_references", .arr (o.selfReferences.map ColumnRef.toJson))]
    ++ if o.unordered.isEmpty then []
      else [("unordered_attribute_edges", .arr (o.unordered.map Edge.toJson))])

def TableOrder.ofJson? (v : Json) : Option TableOrder := do
  let [summary, tables, removed, selfReferences, unordered] ← v.fields?
    ["summary", "order", "removed_edges", "self_references", "unordered_attribute_edges"] | none
  return ⟨← OrderSummary.ofJson? (← summary), ← (← tables).list? Json.str?,
    ← (← removed).list? Edge.ofJson?, ← (← selfReferences).list? ColumnRef.ofJson?,
    ← Json.orElse? [] (·.list? Edge.ofJson?) unordered⟩

end SeedData
