/-
The order of the tables is the smallest that it can be. Of all arrangements of the tables in
which each edge that is followed leads forward (`Arranges`), it is the first, when they are
compared name by name (`tables_are_smallest`).

Where an arrangement parts from the order, its next table could have been next in the order
too, and the order took the first of those.
-/
import SeedData.Proofs.Preferences

namespace SeedData

variable {catalog : Catalog} {keys : ForeignKeys} {attributes attributes' : List Reference}

variable {E : Set Edge} {names placed l l' : List String} {w : String}

/-- A list that goes on from names that have their place to all others, each behind its
parents. -/
structure Continues (names : List String) (E : Set Edge) (placed l : List String) : Prop where
  nodup : l.Nodup
  mem_iff : ∀ v, v ∈ l ↔ v ∈ names ∧ v ∉ placed
  parents : ∀ {before after : List String} {v : String}, l = before ++ v :: after →
    ∀ u, Leads E u v → u ∈ placed ∨ u ∈ before

namespace Continues

/-- What comes next can be next. -/
theorem free_head (h : Continues names E placed (w :: l)) : Free names E placed w where
  mem := ((h.mem_iff w).1 List.mem_cons_self).1
  not_placed := ((h.mem_iff w).1 List.mem_cons_self).2
  parents u hu := (h.parents (List.nil_append (w :: l)).symm u hu).resolve_right List.not_mem_nil

theorem tail (h : Continues names E placed (w :: l)) : Continues names E (w :: placed) l where
  nodup := (List.nodup_cons.1 h.nodup).2
  mem_iff v := by
    have hw : w ∉ l := (List.nodup_cons.1 h.nodup).1
    have hmem := h.mem_iff v
    rw [List.mem_cons] at hmem
    rw [List.mem_cons, not_or]
    constructor
    · intro hv
      obtain ⟨hname, hplaced⟩ := hmem.1 (.inr hv)
      exact ⟨hname, fun he => hw (he ▸ hv), hplaced⟩
    · intro hx
      obtain ⟨hname, hne, hplaced⟩ := hx
      exact (hmem.2 ⟨hname, hplaced⟩).resolve_left hne
  parents := by
    intro before after v hl u hu
    have hwhole : w :: l = (w :: before) ++ v :: after := congrArg (w :: ·) hl
    rcases h.parents hwhole u hu with hp | hb
    · exact .inl (List.mem_cons_of_mem w hp)
    · rcases List.mem_cons.1 hb with rfl | hb
      · exact .inl List.mem_cons_self
      · exact .inr hb

end Continues

/-- Taking the first name that can be next, again and again, gives the first of all lists
that go on from the names placed so far. -/
theorem Arranged.first (h : Arranged names E placed l) (hl : Continues names E placed l') :
    l' = l ∨ l < l' := by
  induction h generalizing l' with
  | done hno =>
    cases l' with
    | nil => exact .inl rfl
    | cons w l' => exact absurd hl.free_head (hno w)
  | @next placed rest v hfree hfirst _ ih =>
    cases l' with
    | nil => exact absurd ((hl.mem_iff v).2 ⟨hfree.mem, hfree.not_placed⟩) List.not_mem_nil
    | cons w l' =>
      -- What the list takes next could have been next in the order, which took the first.
      rcases hfirst w hl.free_head with rfl | hlt
      · rcases ih hl.tail with rfl | hrest
        · exact .inl rfl
        · exact .inr (.cons hrest)
      · exact .inr (.rel hlt)

theorem Arranges.continues (h : Arranges names E l) : Continues names E [] l where
  nodup := h.nodup
  mem_iff v := by simp [h.mem_iff]
  parents hl _ hu := .inr ((TableOrder.precedes_iff h.nodup hl).1 (h.forward _ hu))

theorem Arranges.congr {names' : List String} (h : Arranges names E l) (hnames : ∀ v, v ∈ names ↔ v ∈ names') :
    Arranges names' E l where
  nodup := h.nodup
  mem_iff v := (h.mem_iff v).trans (hnames v)
  forward := h.forward

theorem first_of_arranges {l : List String} (h : Arranges catalog.tableNames
    ((orderTables catalog keys attributes).followed catalog keys attributes) l) :
    l = (orderTables catalog keys attributes).tables ∨ (orderTables catalog keys attributes).tables < l := by
  rw [← edgeSet_followedGraph] at h
  exact (arranged_orderTables catalog keys attributes).first
    (h.congr fun _ => Catalog.mem_numbering.symm).continues

/-- Edges that others lead along forbid no arrangement of them. -/
theorem Arranges.of_implied {names l : List String} {E F : Set Edge} (h : Arranges names E l)
    (hne : ∀ e ∈ F, e.parent ≠ e.child) (himplied : ∀ e ∈ F, Reaches E e.parent e.child) :
    Arranges names F l where
  nodup := h.nodup
  mem_iff := h.mem_iff
  forward e he := h.precedes_of_path
    ((Relation.reflTransGen_iff_eq_or_transGen.1 (himplied e he)).resolve_left (hne e he).symm)

/-- Two orders are the same if each arranges the edges that the other follows. -/
theorem tables_eq_of_arranges
    (h : Arranges catalog.tableNames ((orderTables catalog keys attributes).followed catalog keys attributes)
      (orderTables catalog keys attributes').tables)
    (h' : Arranges catalog.tableNames ((orderTables catalog keys attributes').followed catalog keys attributes')
      (orderTables catalog keys attributes).tables) :
    (orderTables catalog keys attributes').tables = (orderTables catalog keys attributes).tables := by
  rcases first_of_arranges h with heq | hlt
  · exact heq
  · rcases first_of_arranges h' with heq | hlt'
    · exact heq.symm
    · exact absurd hlt' (List.lt_asymm hlt)

/-- **The tables stand in the smallest order that follows the same edges**: the foreign keys
that were not given up, and the references to attributes that were not left out. -/
theorem tables_are_smallest (catalog : Catalog) (keys : ForeignKeys) (attributes : List Reference) :
    let order := orderTables catalog keys attributes
    Arranges catalog.tableNames (order.followed catalog keys attributes) order.tables ∧
      ∀ l, Arranges catalog.tableNames (order.followed catalog keys attributes) l →
        l = order.tables ∨ order.tables < l :=
  ⟨arranges_tables catalog keys attributes, fun _ => first_of_arranges⟩

end SeedData
