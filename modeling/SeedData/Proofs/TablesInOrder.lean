/-
The order of tables is complete, and follows the foreign keys that are kept: each
table of the schema has one place, and the parent of such a key comes before the
child (`tables_complete_and_ordered`).

References to attributes are followed one after another (`Preferring`): each is, unless
what is followed so far leads from its child back to its parent. So there is no cycle in
the graph that is put in order in the end.
-/
import SeedData.Proofs.Arrangement

namespace SeedData

open Relation

variable {E : Set Edge} {e : Edge} {a b : String}

/-! ## One more edge -/

/-- What an edge set reaches with one more edge, it reaches without, or over that
edge. -/
theorem Reaches.of_insert (h : Reaches (insert e E) a b) :
    Reaches E a b ∨ (Reaches E a e.parent ∧ Reaches E e.child b) := by
  induction h with
  | refl => exact .inl (.refl _ _)
  | @tail x y _ hxy ih =>
    rcases hxy with heq | hxy
    · subst heq
      rcases ih with hax | ⟨hax, -⟩
      · exact .inr ⟨hax, .refl _ _⟩
      · exact .inr ⟨hax, .refl _ _⟩
    · rcases ih with hax | ⟨hap, hcx⟩
      · exact .inl (hax.tail hxy)
      · exact .inr ⟨hap, hcx.tail hxy⟩

/-- An edge closes no cycle if its child does not reach its parent. -/
theorem Acyclic.insert (h : Acyclic E) (hno : ¬ Reaches E e.child e.parent) :
    Acyclic (insert e E) := by
  rw [acyclic_iff] at h ⊢
  intro e' hx
  obtain ⟨he', hr⟩ := hx
  rcases hr.of_insert with hin | ⟨hp, hc⟩
  · rcases he' with rfl | he'
    · exact hno hin
    · exact h e' ⟨he', hin⟩
  · rcases he' with rfl | he'
    · exact hno hc
    · exact hno (hc.trans (.head he' hp))

/-! ## One edge after another -/

/-- Following edges in the order of a list, but for those whose child leads back to their
parent: from what, the list, those left out, and what is followed in the end. -/
inductive Preferring : Set Edge → List Edge → List Edge → Set Edge → Prop
  | done {E : Set Edge} : Preferring E [] [] E
  | follow {E E' : Set Edge} {e : Edge} {es left : List Edge} : ¬ Reaches E e.child e.parent →
      Preferring (insert e E) es left E' → Preferring E (e :: es) left E'
  | leave {E E' : Set Edge} {e : Edge} {es left : List Edge} : Reaches E e.child e.parent →
      Preferring E es left E' → Preferring E (e :: es) (e :: left) E'

variable {E' : Set Edge} {es left : List Edge}

theorem Reaches.mono (hE : E ⊆ E') (h : Reaches E a b) : Reaches E' a b :=
  ReflTransGen.mono (fun _ _ hl => hE hl) a b h

theorem Acyclic.not_reaches (h : Acyclic E) (he : e ∈ E) : ¬ Reaches E e.child e.parent :=
  fun hr => acyclic_iff.1 h e ⟨he, hr⟩

namespace Preferring

/-- The procedure has one outcome. -/
theorem det {left' : List Edge} {F : Set Edge} (h : Preferring E es left E') (h' : Preferring E es left' F) :
    left = left' ∧ E' = F := by
  induction h generalizing left' F with
  | done =>
    cases h'
    exact ⟨rfl, rfl⟩
  | follow hno _ ih =>
    cases h' with
    | follow _ hrest' => exact ih hrest'
    | leave hr => exact absurd hr hno
  | leave hr _ ih =>
    cases h' with
    | follow hno => exact absurd hr hno
    | leave _ hrest' =>
      obtain ⟨rfl, rfl⟩ := ih hrest'
      exact ⟨rfl, rfl⟩

theorem subset (h : Preferring E es left E') : E ⊆ E' := by
  induction h with
  | done => exact subset_rfl
  | follow _ _ ih => exact (Set.subset_insert _ _).trans ih
  | leave _ _ ih => exact ih

theorem acyclic (h : Preferring E es left E') (hac : Acyclic E) : Acyclic E' := by
  induction h with
  | done => exact hac
  | follow hno _ ih => exact ih (hac.insert hno)
  | leave _ _ ih => exact ih hac

theorem sublist (h : Preferring E es left E') : left.Sublist es := by
  induction h with
  | done => exact .slnil
  | follow _ _ ih => exact ih.cons _
  | leave _ _ ih => exact ih.cons_cons _

/-- What is left out would close a cycle. -/
theorem reaches (h : Preferring E es left E') (he : e ∈ left) : Reaches E' e.child e.parent := by
  induction h with
  | done => cases he
  | follow _ _ ih => exact ih he
  | leave hr hrest ih =>
    rcases List.mem_cons.1 he with rfl | he
    · exact hr.mono hrest.subset
    · exact ih he

theorem mem_or_mem (h : Preferring E es left E') (he : e ∈ es) : e ∈ left ∨ e ∈ E' := by
  induction h with
  | done => cases he
  | follow _ hrest ih =>
    rcases List.mem_cons.1 he with rfl | he
    · exact .inr (hrest.subset (Set.mem_insert e _))
    · exact ih he
  | leave _ _ ih =>
    rcases List.mem_cons.1 he with rfl | he
    · exact .inl List.mem_cons_self
    · exact (ih he).imp_left (List.mem_cons_of_mem _)

theorem mem_of_mem (h : Preferring E es left E') (he : e ∈ E') : e ∈ E ∨ e ∈ es := by
  induction h with
  | done => exact .inl he
  | follow _ _ ih =>
    rcases ih he with (rfl | hE) | hes
    · exact .inr List.mem_cons_self
    · exact .inl hE
    · exact .inr (List.mem_cons_of_mem _ hes)
  | leave _ _ ih => exact (ih he).imp_right (List.mem_cons_of_mem _)

/-- What is followed in the end is what was followed before, and what is not left out. -/
theorem edges (h : Preferring E es left E') (hac : Acyclic E) : E' = E ∪ {e | e ∈ es ∧ e ∉ left} := by
  ext e
  constructor
  · intro he
    have hleft : e ∉ left := fun hmem => (h.acyclic hac).not_reaches he (h.reaches hmem)
    exact (h.mem_of_mem he).imp_right fun hes => ⟨hes, hleft⟩
  · intro he
    rcases he with hE | ⟨hes, hleft⟩
    · exact h.subset hE
    · exact (h.mem_or_mem hes).resolve_left hleft

end Preferring

namespace Graph

variable {t : Numbering} {g : Graph t}

theorem edgeSet_addEdge (g : Graph t) (arc : Arc t.Node) : (g.addEdge arc).edgeSet = insert (t.edge arc) g.edgeSet := by
  have harcs : (g.addEdge arc).arcSet = insert arc g.arcSet := by
    ext arc'
    simp [arcSet, addEdge]
  rw [edgeSet, harcs, Set.image_insert_eq]
  rfl

/-- Edges are added to a graph as the procedure says. An edge that the graph has already is
one that the procedure follows. -/
theorem preferring_prefer (hac : Acyclic g.edgeSet) (es : List (Edge × Arc t.Node))
    (hes : ∀ e ∈ es, t.edge e.2 = e.1) :
    Preferring g.edgeSet (es.map (·.1)) (g.prefer es).2 (g.prefer es).1.edgeSet := by
  induction es generalizing g with
  | nil => exact .done
  | cons e es ih =>
    obtain ⟨e, arc⟩ := e
    obtain ⟨harc, hrest⟩ := List.forall_mem_cons.1 hes
    simp only at harc
    subst harc
    have hreaches : g.reaches arc.child arc.parent = true ↔
        Reaches g.edgeSet (t.edge arc).child (t.edge arc).parent := reaches_iff.trans reaches_edgeSet_iff.symm
    rw [prefer, List.map_cons]
    split
    · rename_i hhas
      have he : t.edge arc ∈ g.edgeSet := edge_mem_edgeSet.2 (SortedSet.contains_iff.1 hhas)
      refine .follow (hac.not_reaches he) ?_
      rw [Set.insert_eq_of_mem he]
      exact ih hac hrest
    split
    · rename_i hr
      exact .leave (hreaches.1 hr) (ih hac hrest)
    · rename_i hno
      have hnot : ¬ Reaches g.edgeSet (t.edge arc).child (t.edge arc).parent := fun hr => hno (hreaches.2 hr)
      refine .follow hnot ?_
      rw [← edgeSet_addEdge]
      refine ih ?_ hrest
      rw [edgeSet_addEdge]
      exact hac.insert hnot

end Graph

/-! ## What references to attributes ask for -/

namespace Numbering

variable {t : Numbering} {attributes : List Reference} {arc : Arc t.Node}

theorem mem_preferences : (e, arc) ∈ (t.preferences attributes).entries ↔
    t.edge arc = e ∧ ∃ r ∈ attributes, r.sourceTable ≠ r.targetTable ∧ e = ⟨r.targetTable, r.sourceTable⟩ := by
  -- The number of a name depends on the name only, so no two entries differ in their numbers only.
  have hagree : ∀ e ∈ attributes.filterMap (fun r => if r.isSelf then none
      else (t.arc? ⟨r.targetTable, r.sourceTable⟩).map fun e => ((⟨r.targetTable, r.sourceTable⟩ : Edge), e)),
      t.arc? e.1 = some e.2 := by
    intro e he
    obtain ⟨r, -, hr⟩ := List.mem_filterMap.1 he
    simp only [Option.ite_none_left_eq_some, Option.map_eq_some_iff] at hr
    obtain ⟨-, arc, harc, rfl⟩ := hr
    exact harc
  rw [← SortedMap.get?_eq_some_iff, preferences, SortedMap.get?_ofList hagree, Option.ite_none_right_eq_some,
    arc?_eq_some_iff, and_comm]
  refine and_congr_right fun harc => ?_
  simp only [List.mem_map, List.mem_filterMap, Option.ite_none_left_eq_some, Option.map_eq_some_iff,
    Reference.isSelf, decide_eq_true_eq]
  constructor
  · intro hx
    obtain ⟨-, ⟨r, hr, hne, arc', -, rfl⟩, rfl⟩ := hx
    exact ⟨r, hr, hne, rfl⟩
  · intro hx
    obtain ⟨r, hr, hne, rfl⟩ := hx
    exact ⟨_, ⟨r, hr, hne, arc, arc?_eq_some_iff.2 harc, rfl⟩, rfl⟩

theorem edge_of_mem_preferences : ∀ e ∈ (t.preferences attributes).entries, t.edge e.2 = e.1 :=
  fun _ he => (mem_preferences.1 he).1

end Numbering

/-! ## The order of a schema's tables -/

variable {catalog : Catalog} {keys : ForeignKeys} {attributes : List Reference}

/-- The graph that is put in order for a schema. -/
def followedGraph (catalog : Catalog) (keys : ForeignKeys) (attributes : List Reference) :
    Graph catalog.numbering :=
  ((keyGraph catalog.numbering keys).breakCycles.1.prefer (catalog.numbering.preferences attributes).entries).1

/-- The references to attributes of a schema are followed as the procedure says, after the
foreign keys that are kept. -/
theorem preferring_orderTables (catalog : Catalog) (keys : ForeignKeys) (attributes : List Reference) :
    Preferring (keyGraph catalog.numbering keys).breakCycles.1.edgeSet
      (catalog.numbering.preferences attributes).keys
      (orderTables catalog keys attributes).unordered (followedGraph catalog keys attributes).edgeSet :=
  Graph.preferring_prefer (breaking_keyGraph catalog keys).acyclic _ Numbering.edge_of_mem_preferences

theorem arranged_orderTables (catalog : Catalog) (keys : ForeignKeys) (attributes : List Reference) :
    Arranged catalog.numbering.names (followedGraph catalog keys attributes).edgeSet []
      (orderTables catalog keys attributes).tables :=
  Graph.arranged_sort _

theorem edgeSet_breakCycles (catalog : Catalog) (keys : ForeignKeys) (attributes : List Reference) :
    (keyGraph catalog.numbering keys).breakCycles.1.edgeSet =
      {e ∈ keyEdges catalog keys | e ∉ (orderTables catalog keys attributes).removed} :=
  (breaking_keyGraph catalog keys).removed.2.2

theorem acyclic_followedGraph : Acyclic (followedGraph catalog keys attributes).edgeSet :=
  (preferring_orderTables catalog keys attributes).acyclic (breaking_keyGraph catalog keys).acyclic

theorem nodup_tables : (orderTables catalog keys attributes).tables.Nodup :=
  (arranged_orderTables catalog keys attributes).nodup.1

theorem mem_tables_iff {name : String} :
    name ∈ (orderTables catalog keys attributes).tables ↔ name ∈ catalog.tableNames := by
  have harranged := arranged_orderTables catalog keys attributes
  rw [← Catalog.mem_numbering]
  constructor
  · intro h
    exact (harranged.nodup.2 name h).1
  · intro h
    exact (harranged.complete Graph.mem_names_of_leads acyclic_followedGraph h).resolve_left List.not_mem_nil

/-- The parent of an edge that is followed comes before the child. -/
theorem parent_mem_of_followed (he : e ∈ (followedGraph catalog keys attributes).edgeSet)
    {before after : List String} (hl : (orderTables catalog keys attributes).tables = before ++ e.child :: after) :
    e.parent ∈ before :=
  ((arranged_orderTables catalog keys attributes).parents_before hl he).resolve_left List.not_mem_nil

/-- The parent of a foreign key that is kept comes before the child. -/
theorem parent_mem_before (he : e ∈ keyEdges catalog keys)
    (hno : e ∉ (orderTables catalog keys attributes).removed) {before after : List String}
    (hl : (orderTables catalog keys attributes).tables = before ++ e.child :: after) : e.parent ∈ before := by
  refine parent_mem_of_followed ((preferring_orderTables catalog keys attributes).subset ?_) hl
  rw [edgeSet_breakCycles catalog keys attributes]
  exact ⟨he, hno⟩

/-- The first table has its place before the second. -/
def TableOrder.Precedes (o : TableOrder) (a b : String) : Prop :=
  ∃ i j, o.position? a = some i ∧ o.position? b = some j ∧ i < j

/-- In a list without repetitions a name is not among those before it. -/
theorem not_mem_of_nodup {before after : List String} (hn : (before ++ b :: after).Nodup) : b ∉ before :=
  fun hmem => (List.nodup_append.1 hn).2.2 b hmem b List.mem_cons_self rfl

theorem idxOf?_middle {before after : List String} (h : b ∉ before) :
    (before ++ b :: after).idxOf? b = some before.length := by
  rw [List.idxOf?_eq_some_iff]
  refine ⟨by simp, by simp, fun k hk hkb => h ?_⟩
  rw [List.getElem_append_left hk] at hkb
  exact hkb ▸ List.getElem_mem hk

/-- What comes before a table in a list without repetitions. -/
theorem TableOrder.precedes_iff {o : TableOrder} (hn : o.tables.Nodup) {before after : List String}
    (hl : o.tables = before ++ b :: after) : o.Precedes a b ↔ a ∈ before := by
  have hb : b ∉ before := not_mem_of_nodup (hl ▸ hn)
  have hpos : o.position? b = some before.length := by
    rw [position?, hl, idxOf?_middle hb]
  constructor
  · intro hx
    obtain ⟨i, j, hi, hj, hij⟩ := hx
    rw [hpos, Option.some.injEq] at hj
    subst hj
    obtain ⟨_, hia, -⟩ := List.idxOf?_eq_some_iff.1 hi
    simp only [hl, List.getElem_append_left hij] at hia
    exact hia ▸ List.getElem_mem hij
  · intro ha
    obtain ⟨k, hk, hka⟩ := List.getElem_of_mem ha
    obtain ⟨i, hi⟩ := Option.isSome_iff_exists.1 (List.isSome_idxOf?.2 (hl ▸ List.mem_append_left _ ha))
    refine ⟨i, before.length, hi, hpos, ?_⟩
    obtain ⟨_, -, hfirst⟩ := List.idxOf?_eq_some_iff.1 hi
    -- The first place of `a` is not after the one that it has in `before`.
    have hik : i ≤ k := Nat.le_of_not_lt fun hki => hfirst k hki (by
      simp only [hl, List.getElem_append_left hk]
      exact hka)
    omega

/-- **Every table of the schema has exactly one place in the order, and nothing else
has one. The parent of a foreign key to another table comes before the child**,
unless the foreign keys between the two were given up. -/
theorem tables_complete_and_ordered (catalog : Catalog) (keys : ForeignKeys)
    (attributes : List Reference) :
    (∀ name, (orderTables catalog keys attributes).tables.count name =
      if name ∈ catalog.tableNames then 1 else 0) ∧
    ∀ child parent, keys.get? child = some parent → child.table ≠ parent.table →
      child.table ∈ catalog.tableNames → parent.table ∈ catalog.tableNames →
        (⟨parent.table, child.table⟩ : Edge) ∈ (orderTables catalog keys attributes).removed ∨
          (orderTables catalog keys attributes).Precedes parent.table child.table := by
  refine ⟨fun name => ?_, fun child parent hget hne hchild hparent => ?_⟩
  · split
    · rename_i h
      exact List.count_eq_one_of_mem nodup_tables (mem_tables_iff.2 h)
    · rename_i h
      exact List.count_eq_zero_of_not_mem fun hmem => h (mem_tables_iff.1 hmem)
  · by_cases hrem : (⟨parent.table, child.table⟩ : Edge) ∈ (orderTables catalog keys attributes).removed
    · exact .inl hrem
    have he : (⟨parent.table, child.table⟩ : Edge) ∈ keyEdges catalog keys :=
      ⟨hne.symm, hparent, hchild, child, parent, hget, rfl, rfl⟩
    obtain ⟨before, after, hl⟩ := List.append_of_mem (mem_tables_iff.2 hchild)
    exact .inr ((TableOrder.precedes_iff nodup_tables hl).2 (parent_mem_before he hrem hl))

end SeedData
