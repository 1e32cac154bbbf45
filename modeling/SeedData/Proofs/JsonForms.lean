/-
The JSON forms of schemas, references, orders and reports are decoded to what they are forms of
(`forms_read_back`), also where a form leaves a key out: what is left out is what a decoder puts in the
place of a key that is not there.
-/
import Mathlib.Data.List.Induction
import SeedData.Run.Report
import SeedData.Schema.Format

namespace SeedData

/-! ## Lists, numbers and maps -/

namespace Json

variable {α β : Type} {v : Json}

theorem mapM_eq_some_iff {f : α → Option β} {l : List α} {r : List β} :
    l.mapM f = some r ↔ l.map f = r.map some := by
  induction l generalizing r with
  | nil => cases r <;> simp
  | cons a l ih => cases r <;> simp [ih, Option.bind_eq_some_iff]

theorem list?_eq_some_iff {f : Json → Option α} {r : List α} :
    v.list? f = some r ↔ ∃ elements, v = .arr elements ∧ elements.map f = r.map some := by
  cases v <;> simp [list?, arr?, mapM_eq_some_iff]

/-- A list of forms is decoded to what they are forms of, one by one. -/
theorem list?_map {f : Json → Option α} {form : α → Json} (h : ∀ a, f (form a) = some a) (l : List α) :
    (Json.arr (l.map form)).list? f = some l :=
  list?_eq_some_iff.2 ⟨_, rfl, by simp [h]⟩

@[simp] theorem str?_str (s : String) : (Json.str s).str? = some s := rfl

@[simp] theorem word?_toNat (n : UInt64) : (Json.int n.toNat).word? = some n := by
  have hlt : n.toNat < 0x10000000000000000 := n.toNat_lt
  rw [word?, if_pos (by omega)]
  simp

end Json

namespace SortedMap

variable {κ ν : Type} [KeyOrder κ] [DecidableEq κ] [DecidableLT κ]

theorem insertEntry_of_lt {k : κ} (v : ν) {l : List (κ × ν)} (h : ∀ e ∈ l, e.1 < k) :
    insertEntry k v l = l ++ [(k, v)] := by
  induction l with
  | nil => rfl
  | cons e l ih =>
    obtain ⟨he, hl⟩ := List.forall_mem_cons.1 h
    have hlt : ¬ k < e.1 := fun hk => KeyOrder.lt_irrefl k (KeyOrder.lt_trans hk he)
    have hne : ¬ k = e.1 := fun hk => KeyOrder.lt_irrefl k (by rw [hk] at he ⊢; exact he)
    rw [insertEntry, if_neg hlt, if_neg hne, ih hl]
    rfl

/-- A map is made of its entries. -/
theorem ofList_entries (m : SortedMap κ ν) : ofList m.entries = m := by
  have hentries : ∀ l : List (κ × ν), l.Pairwise (fun a b => a.1 < b.1) → (ofList l).entries = l := by
    intro l hl
    induction l using List.reverseRecOn with
    | nil => rfl
    | append_singleton l e ih =>
      obtain ⟨hsorted, -, hlast⟩ := List.pairwise_append.1 hl
      rw [ofList, List.foldl_append, ← ofList]
      show insertEntry e.1 e.2 (ofList l).entries = _
      rw [ih hsorted]
      exact insertEntry_of_lt e.2 fun d hd => hlast d hd e (List.mem_singleton_self e)
  exact SortedMap.ext (hentries m.entries m.sorted)

end SortedMap

/-! ## Schemas -/

@[simp] theorem Setting.ofJson?_toJson (s : Setting) : Setting.ofJson? s.toJson = some s := by
  cases s <;> rfl

@[simp] theorem Settings.ofJson?_toJson (s : Settings) : Settings.ofJson? s.toJson = some s := by
  rw [ofJson?, toJson, Json.list?_map Setting.ofJson?_toJson]
  rfl

@[simp] theorem Column.ofJson?_toJson (c : Column) : Column.ofJson? c.toJson = some c := by
  simp [ofJson?, toJson, Json.fields?, Json.member?]

@[simp] theorem Table.ofJson?_toJson (t : Table) : Table.ofJson? t.toJson = some t := by
  simp [ofJson?, toJson, Json.fields?, Json.member?, Json.list?_map Column.ofJson?_toJson]

@[simp] theorem EnumType.ofJson?_toJson (e : EnumType) : EnumType.ofJson? e.toJson = some e := by
  simp [ofJson?, toJson, Json.fields?, Json.member?, Json.list?_map Json.str?_str]

/-- A schema without types has no key for them, and is decoded to one without types. -/
@[simp] theorem Catalog.ofJson?_toJson (c : Catalog) : Catalog.ofJson? c.toJson = some c := by
  obtain ⟨tables, enums⟩ := c
  cases enums with
  | nil => simp [ofJson?, toJson, Json.fields?, Json.member?, Json.orElse?, Json.list?_map Table.ofJson?_toJson]
  | cons e enums =>
    have henums := Json.list?_map EnumType.ofJson?_toJson (e :: enums)
    rw [List.map_cons] at henums
    simp [ofJson?, toJson, Json.fields?, Json.member?, Json.orElse?, Json.list?_map Table.ofJson?_toJson, henums]

@[simp] theorem Reference.ofJson?_toJson (r : Reference) : Reference.ofJson? r.toJson = some r := by
  simp [ofJson?, toJson, Json.fields?, Json.member?]

/-! ## Orders -/

@[simp] theorem Edge.ofJson?_toJson (e : Edge) : Edge.ofJson? e.toJson = some e := by
  simp [ofJson?, toJson, Json.fields?, Json.member?]

@[simp] theorem ColumnRef.ofJson?_toJson (a : ColumnRef) : ColumnRef.ofJson? a.toJson = some a := by
  simp [ofJson?, toJson, Json.fields?, Json.member?]

theorem OrderSummary.ofJson?_obj (nodes edges : Json) :
    OrderSummary.ofJson? (.obj [("nodes", nodes), ("edges", edges)]) =
      do return ⟨← nodes.word?, ← edges.word?⟩ := by
  simp [OrderSummary.ofJson?, Json.fields?, Json.member?]

@[simp] theorem OrderSummary.ofJson?_toJson (s : OrderSummary) : OrderSummary.ofJson? s.toJson = some s := by
  rw [toJson, ofJson?_obj, Json.word?_toNat, Json.word?_toNat]
  rfl

theorem TableOrder.ofJson?_obj (summary tables removed selfReferences : Json) (unordered : Option Json) :
    TableOrder.ofJson? (.obj ([("summary", summary), ("order", tables), ("removed_edges", removed),
      ("self_references", selfReferences)] ++ unordered.toList.map ("unordered_attribute_edges", ·))) =
      do return ⟨← OrderSummary.ofJson? summary, ← tables.list? Json.str?, ← removed.list? Edge.ofJson?,
        ← selfReferences.list? ColumnRef.ofJson?, ← Json.orElse? [] (·.list? Edge.ofJson?) unordered⟩ := by
  cases unordered <;> simp [TableOrder.ofJson?, Json.fields?, Json.member?]

/-- An order that leaves no reference out has no key for such references. -/
@[simp] theorem TableOrder.ofJson?_toJson (o : TableOrder) : TableOrder.ofJson? o.toJson = some o := by
  obtain ⟨summary, tables, removed, selfReferences, unordered⟩ := o
  cases unordered with
  | nil =>
    refine (ofJson?_obj _ _ _ _ none).trans ?_
    rw [OrderSummary.ofJson?_toJson, Json.list?_map Json.str?_str, Json.list?_map Edge.ofJson?_toJson,
      Json.list?_map ColumnRef.ofJson?_toJson]
    rfl
  | cons e unordered =>
    refine (ofJson?_obj _ _ _ _ (some (.arr ((e :: unordered).map Edge.toJson)))).trans ?_
    rw [OrderSummary.ofJson?_toJson, Json.list?_map Json.str?_str, Json.list?_map Edge.ofJson?_toJson,
      Json.list?_map ColumnRef.ofJson?_toJson, Json.orElse?, Json.list?_map Edge.ofJson?_toJson]
    rfl

/-! ## Reports -/

/-- An issue that is about no column, or about no table, has no key for it. -/
@[simp] theorem Issue.ofJson?_toJson (i : Issue) : Issue.ofJson? i.toJson = some i := by
  obtain ⟨level, code, message, table, column⟩ := i
  cases table <;> cases column <;>
    simp [ofJson?, toJson, Json.memberOf?, Json.fields?, Json.member?, Json.optional?]

theorem TableReport.ofJson?_obj (table requested generated columns : Json) :
    TableReport.ofJson? (.obj [("table", table), ("rows_requested", requested), ("rows_generated", generated),
      ("columns", columns)]) =
      do return ⟨← table.str?, ← requested.word?, ← generated.word?, ← columns.word?⟩ := by
  simp [TableReport.ofJson?, Json.fields?, Json.member?]

@[simp] theorem TableReport.ofJson?_toJson (t : TableReport) : TableReport.ofJson? t.toJson = some t := by
  rw [toJson, ofJson?_obj, Json.word?_toNat, Json.word?_toNat, Json.word?_toNat]
  rfl

namespace Report

theorem countsOfJson?_obj {members : List (String × Json)} {counts : List (String × UInt64)}
    (h : members.map (fun e => e.2.word?.map (e.1, ·)) = counts.map some) :
    countsOfJson? (.obj members) = some (SortedMap.ofList counts) := by
  simp only [countsOfJson?, Json.obj?, Option.bind_eq_bind, Option.bind_some, Option.bind_eq_some_iff,
    Json.mapM_eq_some_iff]
  refine ⟨counts, ?_, rfl⟩
  rw [← h]
  refine List.map_congr_left fun e _ => ?_
  obtain ⟨code, v⟩ := e
  cases v.word? <;> rfl

@[simp] theorem countsOfJson?_countsToJson (counts : SortedMap String UInt64) :
    countsOfJson? (countsToJson counts) = some counts := by
  rw [countsToJson, countsOfJson?_obj, SortedMap.ofList_entries]
  rw [List.map_map]
  refine List.map_congr_left fun e _ => ?_
  rw [Function.comp_apply, Json.word?_toNat, Option.map_some]

theorem ofJson?_obj (seed rowsPerTable tables removed counts issues : Json) :
    ofJson? (.obj [("seed", seed), ("rows_per_table", rowsPerTable), ("tables", tables),
      ("removed_edges", removed), ("warnings_by_code", counts), ("warnings", issues)]) =
      do return ⟨← seed.word?, ← rowsPerTable.word?, ← tables.list? TableReport.ofJson?,
        ← removed.list? Edge.ofJson?, ← countsOfJson? counts, ← issues.list? Issue.ofJson?⟩ := by
  simp [ofJson?, Json.fields?, Json.member?]

@[simp] theorem ofJson?_toJson (r : Report) : ofJson? r.toJson = some r := by
  rw [toJson, ofJson?_obj, Json.word?_toNat, Json.word?_toNat, Json.list?_map TableReport.ofJson?_toJson,
    Json.list?_map Edge.ofJson?_toJson, countsOfJson?_countsToJson, Json.list?_map Issue.ofJson?_toJson]
  rfl

end Report

/-! ## Keys that are left out -/

/-- The value is a record with a field of the name. -/
def Json.HasKey (v : Json) (name : String) : Prop := ∃ members, v = .obj members ∧ name ∈ members.map (·.1)

theorem Json.hasKey_obj_iff {members : List (String × Json)} {name : String} :
    (Json.obj members).HasKey name ↔ name ∈ members.map (·.1) := by
  constructor
  · rintro ⟨_, ⟨⟩, h⟩
    exact h
  · exact fun h => ⟨members, rfl, h⟩

theorem Json.mem_keys_memberOf?_iff {name key : String} {text : Option String} :
    key ∈ (Json.memberOf? name text).map (·.1) ↔ key = name ∧ text ≠ none := by
  cases text <;> simp [memberOf?]

theorem Catalog.hasKey_enums_iff (c : Catalog) : c.toJson.HasKey "enums" ↔ c.enums ≠ [] := by
  rw [toJson, Json.hasKey_obj_iff]
  cases c.enums <;> simp

theorem TableOrder.hasKey_unordered_iff (o : TableOrder) :
    o.toJson.HasKey "unordered_attribute_edges" ↔ o.unordered ≠ [] := by
  rw [toJson, Json.hasKey_obj_iff]
  cases o.unordered <;> simp

theorem Issue.hasKey_iff (i : Issue) :
    (i.toJson.HasKey "table" ↔ i.table ≠ none) ∧ (i.toJson.HasKey "column" ↔ i.column ≠ none) := by
  rw [toJson, Json.hasKey_obj_iff, Json.hasKey_obj_iff]
  simp [Json.mem_keys_memberOf?_iff]

/-- **What is written as JSON is read back**: a schema, a list of references, an order, a report and each of
its issues. The keys that a form can do without are there exactly if there is something to write. -/
theorem forms_read_back (c : Catalog) (refs : List Reference) (o : TableOrder) (r : Report) (i : Issue) :
    Catalog.ofJson? c.toJson = some c ∧ (c.toJson.HasKey "enums" ↔ c.enums ≠ []) ∧
    (Json.arr (refs.map Reference.toJson)).list? Reference.ofJson? = some refs ∧
    TableOrder.ofJson? o.toJson = some o ∧
    (o.toJson.HasKey "unordered_attribute_edges" ↔ o.unordered ≠ []) ∧
    Report.ofJson? r.toJson = some r ∧
    Issue.ofJson? i.toJson = some i ∧
    (i.toJson.HasKey "table" ↔ i.table ≠ none) ∧ (i.toJson.HasKey "column" ↔ i.column ≠ none) :=
  ⟨c.ofJson?_toJson, c.hasKey_enums_iff, Json.list?_map Reference.ofJson?_toJson refs,
    o.ofJson?_toJson, o.hasKey_unordered_iff, r.ofJson?_toJson, i.ofJson?_toJson, i.hasKey_iff⟩

end SeedData
