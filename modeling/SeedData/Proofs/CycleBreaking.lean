/-
Foreign keys are given up exactly as this procedure says (`Breaking`): while some
edge lies on a cycle, remove the first of all that do, by child and parent.

The program never looks for cycles; it compares the components of an edge's ends, and takes
the first by name of the edges that it finds by number. `cycleEdge?_eq_some` says that this
comes to the same.
-/
import Mathlib.Data.Set.Card
import SeedData.Proofs.Components

namespace SeedData

open Relation

/-- The edge lies on a directed cycle: its child leads back to its parent. -/
def OnCycle (E : Set Edge) (e : Edge) : Prop := e ∈ E ∧ Reaches E e.child e.parent

/-- No node leads back to itself. -/
def Acyclic (E : Set Edge) : Prop := ∀ a, ¬ TransGen (Leads E) a a

/-- Removing edges until none lies on a cycle, next always the first edge on one:
from what, which, and what is left. -/
inductive Breaking : Set Edge → List Edge → Set Edge → Prop
  | done {E : Set Edge} : (∀ e, ¬ OnCycle E e) → Breaking E [] E
  | remove {E E' : Set Edge} {e : Edge} {es : List Edge} : OnCycle E e →
      (∀ e', OnCycle E e' → e' = e ∨ e < e') → Breaking (E \ {e}) es E' → Breaking E (e :: es) E'

variable {E E₁ E₂ : Set Edge} {e : Edge} {es es₁ es₂ : List Edge}

theorem acyclic_iff : Acyclic E ↔ ∀ e, ¬ OnCycle E e := by
  constructor
  · intro h e hx
    exact h e.parent (TransGen.head' hx.1 hx.2)
  · intro h a ha
    obtain ⟨b, hab, hba⟩ := TransGen.head'_iff.1 ha
    exact h ⟨a, b⟩ ⟨hab, hba⟩

/-! ## The procedure -/

/-- The procedure has one outcome. -/
theorem Breaking.det (h₁ : Breaking E es₁ E₁) (h₂ : Breaking E es₂ E₂) : es₁ = es₂ ∧ E₁ = E₂ := by
  induction h₁ generalizing es₂ E₂ with
  | done hno =>
    cases h₂ with
    | done => exact ⟨rfl, rfl⟩
    | remove he => exact absurd he (hno _)
  | @remove E E' e es he hfirst _ ih =>
    cases h₂ with
    | done hno => exact absurd he (hno _)
    | @remove _ _ e' _ he' hfirst' hrest' =>
      have heq : e' = e := by
        rcases hfirst e' he' with h | h
        · exact h
        rcases hfirst' e he with h' | h'
        · exact h'.symm
        · exact absurd (KeyOrder.lt_trans h h') (KeyOrder.lt_irrefl e)
      subst heq
      obtain ⟨rfl, rfl⟩ := ih hrest'
      exact ⟨rfl, rfl⟩

theorem Breaking.acyclic (h : Breaking E es E₁) : Acyclic E₁ := by
  induction h with
  | done hno => exact acyclic_iff.2 hno
  | remove _ _ _ ih => exact ih

/-- Each edge is removed once, and what is left are the others. -/
theorem Breaking.removed (h : Breaking E es E₁) :
    es.Nodup ∧ (∀ e ∈ es, e ∈ E) ∧ E₁ = {e ∈ E | e ∉ es} := by
  induction h with
  | done => simp
  | @remove E E' e es he _ _ ih =>
    obtain ⟨hnodup, hsub, rfl⟩ := ih
    refine ⟨List.nodup_cons.2 ⟨fun hmem => (hsub e hmem).2 rfl, hnodup⟩, ?_, ?_⟩
    · intro e' he'
      rcases List.mem_cons.1 he' with rfl | he'
      · exact he.1
      · exact (hsub e' he').1
    · ext e'
      simp [and_assoc]

/-- Nothing is removed exactly if there is no cycle. -/
theorem Breaking.eq_nil_iff (h : Breaking E es E₁) : es = [] ↔ Acyclic E := by
  cases h with
  | done hno => simp [acyclic_iff, hno]
  | remove he => simp only [reduceCtorEq, acyclic_iff, false_iff]; exact fun hno => hno _ he

/-! ## The first by a key -/

theorem firstBy?_eq_none_iff {α κ : Type} [LT κ] [DecidableLT κ] {key : α → κ} {l : List α} :
    firstBy? key l = none ↔ l = [] := by
  cases l with
  | nil => simp [firstBy?]
  | cons a rest =>
    simp only [firstBy?, reduceCtorEq, iff_false]
    split
    · simp
    · split <;> simp

/-- No key comes before that of the first. -/
theorem le_of_firstBy? {α κ : Type} [KeyOrder κ] [DecidableLT κ] {key : α → κ} {l : List α} {a b : α}
    (h : firstBy? key l = some a) (hb : b ∈ l) : key b = key a ∨ key a < key b := by
  induction l generalizing a with
  | nil => cases hb
  | cons c rest ih =>
    simp only [firstBy?] at h
    split at h
    · rename_i hnone
      rw [firstBy?_eq_none_iff.1 hnone, List.mem_singleton] at hb
      obtain rfl := Option.some.inj h
      exact .inl (congrArg key hb)
    · rename_i d hd
      split at h
      · rename_i hlt
        obtain rfl := Option.some.inj h
        rcases List.mem_cons.1 hb with rfl | hb
        · exact .inr hlt
        · exact ih hd hb
      · rename_i hge
        obtain rfl := Option.some.inj h
        rcases List.mem_cons.1 hb with rfl | hb
        · exact .inl rfl
        rcases ih hd hb with heq | hlt
        · exact (KeyOrder.lt_trichotomy (key d) (key c)).resolve_left hge |>.imp
            (fun h' => heq.trans h') fun h' => heq ▸ h'
        · rcases (KeyOrder.lt_trichotomy (key d) (key c)).resolve_left hge with h' | h'
          · exact .inr (h' ▸ hlt)
          · exact .inr (KeyOrder.lt_trans h' hlt)

/-! ## Breaking the cycles of a graph -/

namespace Graph

variable {t : Numbering} {g : Graph t} {arc : Arc t.Node}

/-- The ends of an edge share a component exactly if it lies on a cycle. -/
theorem sameComponent_iff (harc : arc ∈ g.arcSet) :
    (g.components.get? arc.parent == g.components.get? arc.child) = true ↔ OnCycle g.edgeSet (t.edge arc) := by
  have hl : Leads g.arcSet arc.parent arc.child := harc
  rw [beq_iff_eq, components_eq_iff]
  constructor
  · intro h
    exact ⟨edge_mem_edgeSet.2 harc, reaches_edgeSet_iff.2 h.2⟩
  · intro h
    exact ⟨.tail (.refl _ _) hl, reaches_edgeSet_iff.1 h.2⟩

theorem cycleEdge?_eq_none_iff : g.cycleEdge? = none ↔ ∀ e, ¬ OnCycle g.edgeSet e := by
  simp only [cycleEdge?, firstBy?_eq_none_iff, List.filter_eq_nil_iff]
  constructor
  · intro h e hx
    obtain ⟨arc, harc, rfl⟩ := hx.1
    exact h arc harc ((sameComponent_iff harc).2 hx)
  · intro h arc harc hsame
    exact h _ ((sameComponent_iff harc).1 hsame)

/-- What is found is the first edge on a cycle. -/
theorem cycleEdge?_eq_some (h : g.cycleEdge? = some arc) : OnCycle g.edgeSet (t.edge arc) ∧
    ∀ e, OnCycle g.edgeSet e → e = t.edge arc ∨ t.edge arc < e := by
  obtain ⟨harc, hsame⟩ := List.mem_filter.1 (mem_of_firstBy? h)
  refine ⟨(sameComponent_iff harc).1 hsame, fun e he => ?_⟩
  obtain ⟨arc', harc', rfl⟩ := he.1
  exact le_of_firstBy? h (List.mem_filter.2 ⟨harc', (sameComponent_iff harc').2 he⟩)

theorem edgeSet_removeEdge : (g.removeEdge arc).edgeSet = g.edgeSet \ {t.edge arc} := by
  have harcs : (g.removeEdge arc).arcSet = g.arcSet \ {arc} := by
    ext arc'
    simp [arcSet, removeEdge, and_comm]
  rw [edgeSet, harcs, Set.image_sdiff Numbering.edge_injective, Set.image_singleton]
  rfl

theorem breakCycles_of_none (h : g.cycleEdge? = none) : g.breakCycles = (g, []) := by
  rw [breakCycles]
  split
  · rfl
  · rename_i e he _
    rw [h] at he
    cases he

theorem breakCycles_of_some (h : g.cycleEdge? = some arc) : g.breakCycles =
    ((g.removeEdge arc).breakCycles.1, t.edge arc :: (g.removeEdge arc).breakCycles.2) := by
  rw [breakCycles]
  split
  · rename_i hn
    rw [Option.attach_eq_none_iff, h] at hn
    cases hn
  · rename_i e he _
    rw [h] at he
    cases he
    rfl

/-- The cycles of a graph are broken as the procedure says. -/
theorem breaking_breakCycles (g : Graph t) : Breaking g.edgeSet g.breakCycles.2 g.breakCycles.1.edgeSet := by
  induction g using breakCycles.induct with
  | case1 g hnone =>
    have hc := Option.attach_eq_none_iff.1 hnone
    rw [breakCycles_of_none hc]
    exact .done (cycleEdge?_eq_none_iff.1 hc)
  | case2 g arc hc _ rest removed _ ih =>
    obtain ⟨harc, hfirst⟩ := cycleEdge?_eq_some hc
    rw [breakCycles_of_some hc]
    refine .remove harc hfirst ?_
    rw [← edgeSet_removeEdge]
    exact ih

end Graph

/-! ## The graph of the foreign keys -/

/-- The edges from a parent to another table that has a foreign key to it, both
tables of the schema. -/
def keyEdges (catalog : Catalog) (keys : ForeignKeys) : Set Edge := {e |
  e.parent ≠ e.child ∧ e.parent ∈ catalog.tableNames ∧ e.child ∈ catalog.tableNames ∧
    ∃ child parent, keys.get? child = some parent ∧ child.table = e.child ∧ parent.table = e.parent}

theorem Catalog.mem_numbering {catalog : Catalog} {name : String} :
    name ∈ catalog.numbering.names ↔ name ∈ catalog.tableNames := Numbering.mem_names_ofList

theorem Graph.arcSet_foldl_addEdge {t : Numbering} (g : Graph t) (arcs : List (Arc t.Node)) (arc : Arc t.Node) :
    arc ∈ (arcs.foldl addEdge g).arcSet ↔ arc ∈ arcs ∨ arc ∈ g.arcSet := by
  induction arcs generalizing g with
  | nil => simp
  | cons first arcs ih =>
    rw [List.foldl_cons, ih]
    simp only [arcSet, addEdge, SortedSet.mem_toList_add, Set.mem_ofPred_eq, List.mem_cons]
    exact or_left_comm.trans or_assoc.symm

namespace Numbering

variable {t : Numbering} {link : ColumnRef × ColumnRef} {arc : Arc t.Node}

theorem linkKind?_eq_edge_iff : t.linkKind? link = some (.edge arc) ↔
    link.1.table ≠ link.2.table ∧ t.edge arc = keyEdge link := by
  simp only [linkKind?, ← arc?_eq_some_iff]
  split
  · rename_i hself
    split <;> simp [hself]
  · rename_i hself
    cases h : t.arc? (keyEdge link) <;> simp [hself]

/-- The self references of a schema's tables, however these are numbered. -/
theorem selfReferences_eq (t : Numbering) (keys : ForeignKeys) : t.selfReferences keys =
    (keys.entries.filter fun link => link.1.table = link.2.table ∧ link.1.table ∈ t.names).map (·.1) := by
  rw [selfReferences, ← List.filterMap_eq_map, List.filterMap_filter]
  refine List.filterMap_congr fun link _ => ?_
  simp only [linkKind?, ← isSome_node?_iff]
  by_cases hself : link.1.table = link.2.table
  · cases t.node? link.1.table <;> simp [hself]
  · cases h : t.arc? (keyEdge link) <;> simp [hself]

theorem mem_keyArcs_iff {keys : ForeignKeys} : arc ∈ t.keyArcs keys ↔
    ∃ child parent, keys.get? child = some parent ∧ child.table ≠ parent.table ∧
      t.edge arc = ⟨parent.table, child.table⟩ := by
  simp only [keyArcs, List.mem_filterMap]
  constructor
  · intro hx
    obtain ⟨⟨child, parent⟩, hlink, hkind⟩ := hx
    split at hkind
    · rename_i arc' hedge
      obtain rfl := Option.some.inj hkind
      exact ⟨child, parent, SortedMap.get?_eq_some_iff.2 hlink, linkKind?_eq_edge_iff.1 hedge⟩
    · cases hkind
  · intro hx
    obtain ⟨child, parent, hget, hedge⟩ := hx
    exact ⟨(child, parent), SortedMap.get?_eq_some_iff.1 hget, by rw [linkKind?_eq_edge_iff.2 hedge]⟩

end Numbering

variable {catalog : Catalog} {keys : ForeignKeys}

theorem edgeSet_keyGraph (catalog : Catalog) (keys : ForeignKeys) :
    (keyGraph catalog.numbering keys).edgeSet = keyEdges catalog keys := by
  have hnone : ∀ arc, arc ∉ (Graph.empty catalog.numbering).arcSet := by simp [Graph.arcSet, Graph.empty]
  ext e
  simp only [Graph.edgeSet, keyGraph, Set.mem_image, Graph.arcSet_foldl_addEdge, hnone, or_false,
    Numbering.mem_keyArcs_iff, keyEdges, Set.mem_ofPred_eq, ← Catalog.mem_numbering]
  constructor
  · intro hx
    obtain ⟨arc, ⟨child, parent, hget, hne, harc⟩, rfl⟩ := hx
    obtain ⟨hparent, hchild⟩ := Numbering.exists_arc_iff.1 ⟨arc, rfl⟩
    rw [harc]
    exact ⟨hne.symm, harc ▸ hparent, harc ▸ hchild, child, parent, hget, rfl, rfl⟩
  · intro hx
    obtain ⟨hne, hparent, hchild, child, parent, hget, hc, hp⟩ := hx
    obtain ⟨arc, rfl⟩ := Numbering.exists_arc_iff.2 ⟨hparent, hchild⟩
    refine ⟨arc, ⟨child, parent, hget, ?_, ?_⟩, rfl⟩
    · rw [hc, hp]
      exact hne.symm
    · rw [hc, hp]

theorem Graph.arcSet_eq_coe {t : Numbering} (g : Graph t) : g.arcSet = (g.edges.toList.toFinset : Set (Arc t.Node)) := by
  ext arc
  simp [Graph.mem_arcSet]

theorem finite_keyEdges (catalog : Catalog) (keys : ForeignKeys) : (keyEdges catalog keys).Finite := by
  rw [← edgeSet_keyGraph, Graph.edgeSet, Graph.arcSet_eq_coe]
  exact (Finset.finite_toSet _).image _

theorem ncard_keyEdges (catalog : Catalog) (keys : ForeignKeys) :
    (keyEdges catalog keys).ncard = (keyGraph catalog.numbering keys).edges.size := by
  rw [← edgeSet_keyGraph, Graph.edgeSet, Set.ncard_image_of_injective _ Numbering.edge_injective,
    Graph.arcSet_eq_coe, Set.ncard_coe_finset, List.toFinset_card_of_nodup (SortedSet.nodup_toList _),
    SortedSet.length_toList]

theorem summary_orderTables (catalog : Catalog) (keys : ForeignKeys) (attributes : List Reference) :
    (orderTables catalog keys attributes).summary =
      ⟨UInt64.ofNat catalog.numbering.size, UInt64.ofNat (keyEdges catalog keys).ncard⟩ := by
  rw [ncard_keyEdges]
  rfl

/-- What the foreign keys of a schema come to when their cycles are broken. -/
theorem breaking_keyGraph (catalog : Catalog) (keys : ForeignKeys) :
    Breaking (keyEdges catalog keys) (keyGraph catalog.numbering keys).breakCycles.2
      (keyGraph catalog.numbering keys).breakCycles.1.edgeSet := by
  rw [← edgeSet_keyGraph]
  exact Graph.breaking_breakCycles _

/-- **The foreign keys that are given up are those that the procedure removes**, in its
order: from the edges between different tables of the schema, again and again the
first edge on a cycle. There are at most as many of them as edges, none exactly
if there is no cycle, and what is left has no cycle. -/
theorem removed_iff_breaking (catalog : Catalog) (keys : ForeignKeys) (attributes : List Reference) :
    let order := orderTables catalog keys attributes
    (∀ es, (∃ rest, Breaking (keyEdges catalog keys) es rest) ↔ es = order.removed) ∧
      order.removed.length ≤ (keyEdges catalog keys).ncard ∧
      order.summary.edges = UInt64.ofNat (keyEdges catalog keys).ncard ∧
      Acyclic {e ∈ keyEdges catalog keys | e ∉ order.removed} ∧
      (order.removed = [] ↔ Acyclic (keyEdges catalog keys)) := by
  intro order
  have hb : Breaking (keyEdges catalog keys) order.removed _ := breaking_keyGraph catalog keys
  obtain ⟨hnodup, hsub, hrest⟩ := hb.removed
  refine ⟨fun es => ⟨?_, ?_⟩, ?_, ?_, ?_, hb.eq_nil_iff⟩
  · intro hx
    obtain ⟨rest, h⟩ := hx
    exact (h.det hb).1
  · intro heq
    subst heq
    exact ⟨_, hb⟩
  · rw [← List.toFinset_card_of_nodup hnodup, ← Set.ncard_coe_finset]
    exact Set.ncard_le_ncard (fun e he => hsub e (List.mem_toFinset.1 he)) (finite_keyEdges catalog keys)
  · exact congrArg OrderSummary.edges (summary_orderTables catalog keys attributes)
  · exact hrest ▸ hb.acyclic

end SeedData
