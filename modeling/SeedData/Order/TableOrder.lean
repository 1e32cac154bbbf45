/-
The order in which tables are filled: parents before the children that refer to
them. Foreign keys that close a cycle are given up one at a time, the first edge
on a cycle by the names of child and parent. References to attributes are then
followed where they close no cycle.
-/
import SeedData.Order.Graph
import SeedData.Notice
import SeedData.Schema.Classification

namespace SeedData

/-- How large the graph of foreign keys is, before any edge is given up. -/
structure OrderSummary where
  nodes : UInt64
  edges : UInt64
  deriving DecidableEq, Repr, Inhabited

/-- An order of tables, and what was given up for it. -/
@[ext] structure TableOrder where
  summary : OrderSummary
  /-- The tables, parents before children. -/
  tables : List String
  /-- Foreign keys given up to break cycles, in the order of giving up. -/
  removed : List Edge
  /-- Foreign keys that lead to their own table. -/
  selfReferences : List ColumnRef
  /-- References to attributes whose parent could not be placed before the child. -/
  unordered : List Edge
  deriving DecidableEq, Repr, Inhabited

namespace TableOrder

/-- The order of the given tables, with nothing given up. -/
def ofTables (tables : List String) : TableOrder := ⟨⟨0, 0⟩, tables, [], [], []⟩

def position? (o : TableOrder) (table : String) : Option Nat := o.tables.idxOf? table

/-- Whether the foreign keys from the child to the parent were given up. -/
def isRemoved (o : TableOrder) (parent child : String) : Bool :=
  o.removed.any fun e => e.parent = parent && e.child = child

def hasCycles (o : TableOrder) : Bool := !o.removed.isEmpty

end TableOrder

/-! ## Building the graph -/

/-- The edge of a foreign key from child to parent. -/
def keyEdge (link : ColumnRef × ColumnRef) : Edge := ⟨link.2.table, link.1.table⟩

/-- What a foreign key is to the graph of numbered tables. -/
inductive LinkKind (t : Numbering) where
  /-- It leads to its own table. -/
  | self
  /-- It leads to another table. -/
  | edge (e : Arc t.Node)
  /-- It leads from or to a table that is not there. -/
  | outside

namespace Numbering

variable (t : Numbering)

/-- What a foreign key is to the graph; none if it leads from an unknown table to
itself. -/
def linkKind? (link : ColumnRef × ColumnRef) : Option (LinkKind t) :=
  if link.1.table = link.2.table then
    if (t.node? link.1.table).isSome then some .self else none
  else some ((t.arc? (keyEdge link)).elim .outside .edge)

/-- The columns of the foreign keys that lead to their own table. -/
def selfReferences (keys : ForeignKeys) : List ColumnRef :=
  keys.entries.filterMap fun link =>
    match t.linkKind? link with
    | some .self => some link.1
    | _ => none

/-- The edges of the foreign keys that lead to another table. -/
def keyArcs (keys : ForeignKeys) : List (Arc t.Node) :=
  keys.entries.filterMap fun link =>
    match t.linkKind? link with
    | some (.edge e) => some e
    | _ => none

/-- The foreign keys that lead from or to a table that is not there. -/
def outsideLinks (keys : ForeignKeys) : List (ColumnRef × ColumnRef) :=
  keys.entries.filter fun link =>
    match t.linkKind? link with
    | some .outside => true
    | _ => false

end Numbering

/-- The tables of a schema by name, numbered in the order of declaration. -/
def Catalog.numbering (catalog : Catalog) : Numbering := .ofList catalog.tableNames

/-- The graph of the foreign keys between numbered tables. -/
def keyGraph (t : Numbering) (keys : ForeignKeys) : Graph t :=
  (t.keyArcs keys).foldl Graph.addEdge (.empty t)

/-! ## Breaking cycles -/

namespace Graph

variable {t : Numbering}

/-- Gives up the first edge on a cycle until there is none; answers what is left and
what was given up. -/
def breakCycles (g : Graph t) : Graph t × List Edge :=
  match g.cycleEdge?.attach with
  | none => (g, [])
  | some ⟨e, _⟩ =>
    let (rest, removed) := (g.removeEdge e).breakCycles
    (rest, t.edge e :: removed)
termination_by g.edges.size
decreasing_by
  rename_i h
  exact SortedMap.size_erase_lt (SortedSet.contains_iff.2 (mem_of_cycleEdge? h))

/-! ## Preferences -/

/-- Adds edges one after another, leaving out those that would close a cycle; answers the
graph and the edges left out. Each edge comes with its names. -/
def prefer (g : Graph t) : List (Edge × Arc t.Node) → Graph t × List Edge
  | [] => (g, [])
  | (names, e) :: rest =>
    if g.hasEdge e then g.prefer rest
    else if g.reaches e.child e.parent then
      let (result, left) := g.prefer rest
      (result, names :: left)
    else (g.addEdge e).prefer rest

end Graph

/-- The edges that references to attributes ask for, under their names. -/
def Numbering.preferences (t : Numbering) (attributes : List Reference) : SortedMap Edge (Arc t.Node) :=
  SortedMap.ofList (attributes.filterMap fun r =>
    if r.isSelf then none
    else (t.arc? ⟨r.targetTable, r.sourceTable⟩).map fun e => (⟨r.targetTable, r.sourceTable⟩, e))

/-- The order of the tables of a schema by its foreign keys and, after them, by
its references to attributes. -/
def orderTables (catalog : Catalog) (keys : ForeignKeys) (attributes : List Reference) :
    TableOrder :=
  let t := catalog.numbering
  let full := keyGraph t keys
  let (acyclic, removed) := full.breakCycles
  let (final, unordered) := acyclic.prefer (t.preferences attributes).entries
  { summary := ⟨UInt64.ofNat t.size, UInt64.ofNat full.edges.size⟩
    tables := final.sort
    removed := removed
    selfReferences := t.selfReferences keys
    unordered := unordered }

/-! ## What there is to say -/

/-- What classifying references has to say: those that lead nowhere, and how many
there are of each kind. -/
def classifyNotices (classified : Classification) : List Notice :=
  classified.unresolved.map (fun r => .targetNotFound r.source r.target)
    ++ [.referencesClassified classified.foreignKeys.length classified.attributes.length
      classified.unresolved.length]

/-- The foreign keys of a list of references that a later one from the same column
leads elsewhere. -/
def overrideNotices : ForeignKeys → List Reference → List Notice
  | _, [] => []
  | keys, r :: rest =>
    let later := overrideNotices (keys.insert r.source r.target) rest
    match keys.get? r.source with
    | some previous =>
      if previous = r.target then later
      else .targetOverridden r.source previous r.target :: later
    | none => later

/-- What ordering has to say: the foreign keys it cannot use, those it gives up,
the references it does not follow, and the order. -/
def orderNotices (catalog : Catalog) (keys : ForeignKeys) (order : TableOrder) : List Notice :=
  (catalog.numbering.outsideLinks keys).map (fun link => .outsideCatalog link.1 link.2)
    ++ order.removed.map (fun e => .cycleBroken e.parent e.child)
    ++ order.unordered.map (fun e => .linkNotOrdered e.parent e.child)
    ++ [.orderResolved order.tables]

end SeedData
