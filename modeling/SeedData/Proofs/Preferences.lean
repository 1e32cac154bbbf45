/-
References to attributes never cost a foreign key, and one of them is left out only where it
would close a cycle of what is followed (`preferences_yield_only_to_cycles`).

The parent of a reference that is left out comes after the child, since the way from the
child to the parent is one that the order follows.
-/
import SeedData.Proofs.TablesInOrder

namespace SeedData

open Relation

variable {E E' : Set Edge} {e : Edge} {es left : List Edge} {a b c : String}

/-! ## Orders -/

namespace TableOrder

variable {o : TableOrder}

theorem Precedes.trans (hab : o.Precedes a b) (hbc : o.Precedes b c) : o.Precedes a c := by
  obtain ⟨i, j, hi, hj, hij⟩ := hab
  obtain ⟨j', k, hj', hk, hjk⟩ := hbc
  obtain rfl := Option.some.inj (hj.symm.trans hj')
  exact ⟨i, k, hi, hk, Nat.lt_trans hij hjk⟩

theorem Precedes.asymm (hab : o.Precedes a b) : ¬ o.Precedes b a := by
  intro hba
  obtain ⟨i, j, hi, hj, hij⟩ := hab.trans hba
  obtain rfl := Option.some.inj (hi.symm.trans hj)
  exact Nat.lt_irrefl i hij

end TableOrder

/-- The edges from a parent to another table that has a reference to an attribute of it, both
tables of the schema. -/
def attributeEdges (catalog : Catalog) (attributes : List Reference) : Set Edge := {e |
  e.parent ≠ e.child ∧ e.parent ∈ catalog.tableNames ∧ e.child ∈ catalog.tableNames ∧
    ∃ r ∈ attributes, r.targetTable = e.parent ∧ r.sourceTable = e.child}

/-- The edges that an order follows: those of foreign keys that were not given up, and those
of references to attributes that were not left out. -/
def TableOrder.followed (o : TableOrder) (catalog : Catalog) (keys : ForeignKeys)
    (attributes : List Reference) : Set Edge :=
  {e ∈ keyEdges catalog keys | e ∉ o.removed} ∪ {e ∈ attributeEdges catalog attributes | e ∉ o.unordered}

variable {catalog : Catalog} {keys : ForeignKeys} {attributes : List Reference}

theorem mem_keys_preferences : e ∈ (catalog.numbering.preferences attributes).keys ↔
    e ∈ attributeEdges catalog attributes := by
  simp only [SortedMap.keys, List.mem_map, Prod.exists, exists_and_right, exists_eq_right,
    Numbering.mem_preferences, Numbering.exists_arc_iff, Catalog.mem_numbering]
  constructor
  · intro hx
    obtain ⟨⟨hparent, hchild⟩, r, hr, hne, rfl⟩ := hx
    exact ⟨hne.symm, hparent, hchild, r, hr, rfl, rfl⟩
  · intro hx
    obtain ⟨hne, hparent, hchild, r, hr, htarget, hsource⟩ := hx
    cases e
    subst htarget hsource
    exact ⟨⟨hparent, hchild⟩, r, hr, hne.symm, rfl⟩

theorem edgeSet_followedGraph (catalog : Catalog) (keys : ForeignKeys) (attributes : List Reference) :
    (followedGraph catalog keys attributes).edgeSet =
      (orderTables catalog keys attributes).followed catalog keys attributes := by
  have hac := (breaking_keyGraph catalog keys).acyclic
  rw [(preferring_orderTables catalog keys attributes).edges hac, edgeSet_breakCycles catalog keys attributes,
    TableOrder.followed]
  simp only [mem_keys_preferences]

/-- The parent of an edge that is followed comes before the child. -/
theorem precedes_of_followed
    (he : e ∈ (orderTables catalog keys attributes).followed catalog keys attributes) :
    (orderTables catalog keys attributes).Precedes e.parent e.child := by
  have hchild : e.child ∈ (orderTables catalog keys attributes).tables := by
    rw [mem_tables_iff]
    rcases he with he | he
    · exact he.1.2.2.1
    · exact he.1.2.2.1
  obtain ⟨before, after, hl⟩ := List.append_of_mem hchild
  rw [TableOrder.precedes_iff nodup_tables hl]
  exact parent_mem_of_followed (edgeSet_followedGraph catalog keys attributes ▸ he) hl

/-- The list has each of the names once, and the parent of every edge before the child. -/
structure Arranges (names : List String) (E : Set Edge) (l : List String) : Prop where
  nodup : l.Nodup
  mem_iff : ∀ name, name ∈ l ↔ name ∈ names
  forward : ∀ e ∈ E, (TableOrder.ofTables l).Precedes e.parent e.child

theorem Arranges.precedes_of_path {names l : List String} (h : Arranges names E l)
    (hpath : TransGen (Leads E) a b) : (TableOrder.ofTables l).Precedes a b := by
  induction hpath with
  | single hl => exact h.forward _ hl
  | tail _ hl ih => exact ih.trans (h.forward _ hl)

theorem arranges_tables (catalog : Catalog) (keys : ForeignKeys) (attributes : List Reference) :
    Arranges catalog.tableNames ((orderTables catalog keys attributes).followed catalog keys attributes)
      (orderTables catalog keys attributes).tables where
  nodup := nodup_tables
  mem_iff _ := mem_tables_iff
  forward _ he := precedes_of_followed he

/-- An edge that is left out would close a cycle of those that are followed. -/
theorem reaches_of_unordered (he : e ∈ (orderTables catalog keys attributes).unordered) :
    Reaches ((orderTables catalog keys attributes).followed catalog keys attributes) e.child e.parent := by
  rw [← edgeSet_followedGraph]
  exact (preferring_orderTables catalog keys attributes).reaches he

theorem mem_attributeEdges_of_unordered (he : e ∈ (orderTables catalog keys attributes).unordered) :
    e ∈ attributeEdges catalog attributes :=
  mem_keys_preferences.1 ((preferring_orderTables catalog keys attributes).sublist.subset he)

/-- The table that a reference to an attribute leads to comes before the one it is in unless
the reference was left out. -/
theorem precedes_iff_not_mem_unordered (he : e ∈ attributeEdges catalog attributes) :
    (orderTables catalog keys attributes).Precedes e.parent e.child ↔
      e ∉ (orderTables catalog keys attributes).unordered := by
  constructor
  · intro hprec hun
    rcases reflTransGen_iff_eq_or_transGen.1 (reaches_of_unordered hun) with heq | hpath
    · exact he.1 heq
    · exact hprec.asymm ((arranges_tables catalog keys attributes).precedes_of_path hpath)
  · intro hun
    exact precedes_of_followed (.inr ⟨he, hun⟩)

/-- **References to attributes never cost a foreign key, and are left out only for a cycle**:
what is said of the foreign keys is what is said without such references. The table that one
leads to comes before the one it is in exactly if their edge is not left out; each edge that is
belongs to such a reference, is named once, and has a way back over what is followed. -/
theorem preferences_yield_only_to_cycles (catalog : Catalog) (keys : ForeignKeys)
    (attributes : List Reference) :
    let order := orderTables catalog keys attributes
    let plain := orderTables catalog keys []
    (order.summary = plain.summary ∧ order.removed = plain.removed ∧
      order.selfReferences = plain.selfReferences) ∧
    (∀ r ∈ attributes, r.sourceTable ≠ r.targetTable → r.sourceTable ∈ catalog.tableNames →
      r.targetTable ∈ catalog.tableNames →
        (order.Precedes r.targetTable r.sourceTable ↔ ⟨r.targetTable, r.sourceTable⟩ ∉ order.unordered)) ∧
    order.unordered.Nodup ∧
    ∀ e ∈ order.unordered, e ∈ attributeEdges catalog attributes ∧
      Reaches (order.followed catalog keys attributes) e.child e.parent := by
  refine ⟨⟨rfl, rfl, rfl⟩, fun r hr hne hs ht => ?_, ?_, fun e he => ?_⟩
  · have he : (⟨r.targetTable, r.sourceTable⟩ : Edge) ∈ attributeEdges catalog attributes :=
      ⟨hne.symm, ht, hs, r, hr, rfl, rfl⟩
    exact precedes_iff_not_mem_unordered he
  · exact (preferring_orderTables catalog keys attributes).sublist.nodup (SortedMap.nodup_keys _)
  · exact ⟨mem_attributeEdges_of_unordered he, reaches_of_unordered he⟩

/-- Of two tables that take attributes from each other, one comes first. -/
example : (orderTables ⟨[⟨"a", []⟩, ⟨"b", []⟩], []⟩ SortedMap.empty
    [⟨"a", "x", "b", "y"⟩, ⟨"b", "y", "a", "x"⟩]).unordered = [⟨"a", "b"⟩] := by cbv

end SeedData
