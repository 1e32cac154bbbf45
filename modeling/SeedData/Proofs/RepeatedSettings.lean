/-
Collections of settings that repeat one. What is taken in setting by setting never stands twice. A list in
JSON is taken over as it stands, though, so a collection that was decoded repeats a setting exactly if two
elements of its list are the same setting, wherever in a column, table or schema the list stands; settings
that are inserted later change nothing about that (`nodup_settings_iff`).
-/
import Mathlib.Data.List.Nodup
import Mathlib.Data.Option.Basic
import SeedData.Proofs.JsonForms
import SeedData.Proofs.WellFormedSchemas

namespace SeedData

/-! ## Places in a form -/

namespace Json

/-- The field at a place of a record. -/
def field? (names : List String) (place : Nat) (v : Json) : Option Json :=
  (v.fields? names).bind fun fields => fields[place]?.join

/-- The element at a place of a list. -/
def element? (place : Nat) (v : Json) : Option Json := v.arr?.bind (·[place]?)

/-- What stands at a place of a list was decoded from the element there. -/
theorem exists_element? {α : Type} {f : Json → Option α} {v : Json} {r : List α} (h : v.list? f = some r)
    {place : Nat} {a : α} (ha : r[place]? = some a) : ∃ w, v.element? place = some w ∧ f w = some a := by
  obtain ⟨elements, rfl, hmap⟩ := list?_eq_some_iff.1 h
  have hplace := congrArg (·[place]?) hmap
  simp only [List.getElem?_map, ha, Option.map_some, Option.map_eq_some_iff] at hplace
  exact hplace

end Json

/-- The list of settings in the form of a column. -/
def Column.settingsForm? : Json → Option Json := Json.field? ["name", "data_type", "settings"] 2

/-- The column at a place in the form of a table. -/
def Table.columnForm? (place : Nat) (v : Json) : Option Json :=
  (v.field? ["name", "columns"] 1).bind (Json.element? place)

/-- The table at a place in the form of a schema. -/
def Catalog.tableForm? (place : Nat) (v : Json) : Option Json :=
  (v.field? ["tables", "enums"] 0).bind (Json.element? place)

variable {v : Json} {c : Column} {t : Table} {catalog : Catalog} {place : Nat}

theorem Column.exists_settingsForm? (h : Column.ofJson? v = some c) :
    ∃ w, settingsForm? v = some w ∧ Settings.ofJson? w = some c.settings := by
  simp only [ofJson?, Option.bind_eq_bind, Option.bind_eq_some_iff] at h
  obtain ⟨fields, hfields, h⟩ := h
  split at h
  · simp only [Option.bind_eq_some_iff] at h
    obtain ⟨_, -, name, -, _, -, type, -, w, rfl, settings, hsettings, hc⟩ := h
    obtain rfl := Option.some.inj hc
    exact ⟨w, by simp [settingsForm?, Json.field?, hfields], hsettings⟩
  · cases h

theorem Table.exists_columnForm? (h : Table.ofJson? v = some t) (hc : t.columns[place]? = some c) :
    ∃ w, columnForm? place v = some w ∧ Column.ofJson? w = some c := by
  simp only [ofJson?, Option.bind_eq_bind, Option.bind_eq_some_iff] at h
  obtain ⟨fields, hfields, h⟩ := h
  split at h
  · simp only [Option.bind_eq_some_iff] at h
    obtain ⟨_, -, name, -, list, rfl, columns, hcolumns, ht⟩ := h
    obtain rfl := Option.some.inj ht
    obtain ⟨w, hw, hcolumn⟩ := Json.exists_element? hcolumns hc
    exact ⟨w, by simp [columnForm?, Json.field?, hfields, hw], hcolumn⟩
  · cases h

theorem Catalog.exists_tableForm? (h : Catalog.ofJson? v = some catalog) (ht : catalog.tables[place]? = some t) :
    ∃ w, tableForm? place v = some w ∧ Table.ofJson? w = some t := by
  simp only [ofJson?, Option.bind_eq_bind, Option.bind_eq_some_iff] at h
  obtain ⟨fields, hfields, h⟩ := h
  split at h
  · simp only [Option.bind_eq_some_iff] at h
    obtain ⟨list, rfl, tables, htables, enums, -, hcatalog⟩ := h
    obtain rfl := Option.some.inj hcatalog
    obtain ⟨w, hw, htable⟩ := Json.exists_element? htables ht
    exact ⟨w, by simp [tableForm?, Json.field?, hfields, hw], htable⟩
  · cases h

/-! ## Repeated settings -/

namespace Settings

variable {s : Settings} {forms : List Json}

/-- Inserting a setting neither makes nor mends a repetition. -/
theorem nodup_insert_iff (s : Settings) (x : Setting) : (s.insert x).toList.Nodup ↔ s.toList.Nodup := by
  rw [insert]
  split
  · exact Iff.rfl
  · rename_i hnew
    have hx : x ∉ s.toList := by simpa [contains] using hnew
    rw [← List.concat_eq_append]
    refine ⟨fun h => ?_, fun h => h.concat hx⟩
    rw [List.concat_eq_append] at h
    exact (List.nodup_append.1 h).1

theorem nodup_foldl_insert_iff (s : Settings) (added : List Setting) :
    (added.foldl insert s).toList.Nodup ↔ s.toList.Nodup := by
  induction added generalizing s with
  | nil => exact Iff.rfl
  | cons x added ih => rw [List.foldl_cons, ih, nodup_insert_iff]

/-- The settings of a JSON list are those of its elements, one by one. -/
theorem ofJson?_eq_some_iff :
    Settings.ofJson? v = some s ↔ ∃ forms, v = .arr forms ∧ forms.map Setting.ofJson? = s.toList.map some := by
  rw [ofJson?, ← Json.list?_eq_some_iff]
  cases v.list? Setting.ofJson? <;> simp [← Settings.mk.injEq]

/-- What a collection of settings is first made of: nothing, the text between brackets, settings one after
another, or a JSON value, where it can be decoded as part of a column, of the column at a place of a table,
or of the column at a place of the table at a place of a schema. -/
inductive Origin where
  | empty
  | text (raw : String)
  | list (settings : List Setting)
  | form (v : Json)
  | columnForm (v : Json)
  | tableForm (v : Json) (column : Nat)
  | catalogForm (v : Json) (table column : Nat)

namespace Origin

/-- The collection that is made; there is none if the JSON value is of another shape. -/
def settings? : Origin → Option Settings
  | empty => some .empty
  | text raw => some (.parse raw)
  | list settings => some (.ofList settings)
  | form v => Settings.ofJson? v
  | columnForm v => (Column.ofJson? v).map (·.settings)
  | tableForm v column => do return (← (← Table.ofJson? v).columns[column]?).settings
  | catalogForm v table column => do
    return (← (← (← Catalog.ofJson? v).tables[table]?).columns[column]?).settings

/-- The JSON value that stands for the collection, if it is decoded from one. -/
def form? : Origin → Option Json
  | form v => some v
  | columnForm v => Column.settingsForm? v
  | tableForm v column => (Table.columnForm? column v).bind Column.settingsForm?
  | catalogForm v table column =>
    (Catalog.tableForm? table v).bind fun w => (Table.columnForm? column w).bind Column.settingsForm?
  | empty | text _ | list _ => none

/-- No two elements of the JSON list that stands for the collection are the same setting. -/
def TellsApart (o : Origin) : Prop := ∀ forms, o.form? = some (.arr forms) → (forms.map Setting.ofJson?).Nodup

/-- A collection is made without repetition, or it is decoded from the value that stands for it. -/
theorem cases_of_settings? {o : Origin} (h : o.settings? = some s) :
    o.form? = none ∧ s.toList.Nodup ∨ ∃ w, o.form? = some w ∧ Settings.ofJson? w = some s := by
  cases o with
  | empty =>
    obtain rfl := Option.some.inj h
    exact .inl ⟨rfl, List.nodup_nil⟩
  | text raw =>
    obtain rfl := Option.some.inj h
    exact .inl ⟨rfl, nodup_ofList _⟩
  | list settings =>
    obtain rfl := Option.some.inj h
    exact .inl ⟨rfl, nodup_ofList settings⟩
  | form v => exact .inr ⟨v, rfl, h⟩
  | columnForm v =>
    obtain ⟨c, hc, rfl⟩ := Option.map_eq_some_iff.1 h
    exact .inr (Column.exists_settingsForm? hc)
  | tableForm v column =>
    simp only [settings?, Option.bind_eq_bind, Option.bind_eq_some_iff] at h
    obtain ⟨t, ht, c, hc, hs⟩ := h
    obtain rfl := Option.some.inj hs
    obtain ⟨w, hw, hcolumn⟩ := Table.exists_columnForm? ht hc
    rw [form?, hw]
    exact .inr (Column.exists_settingsForm? hcolumn)
  | catalogForm v table column =>
    simp only [settings?, Option.bind_eq_bind, Option.bind_eq_some_iff] at h
    obtain ⟨catalog, hcatalog, t, ht, c, hc, hs⟩ := h
    obtain rfl := Option.some.inj hs
    obtain ⟨u, hu, htable⟩ := Catalog.exists_tableForm? hcatalog ht
    obtain ⟨w, hw, hcolumn⟩ := Table.exists_columnForm? htable hc
    rw [form?, hu, Option.bind_some, hw]
    exact .inr (Column.exists_settingsForm? hcolumn)

/-- **No setting stands twice exactly if the collection was not decoded from a list that has one twice**,
whatever is inserted later. -/
theorem nodup_settings_iff {o : Origin} (h : o.settings? = some s) (added : List Setting) :
    (added.foldl Settings.insert s).toList.Nodup ↔ o.TellsApart := by
  rw [nodup_foldl_insert_iff]
  rcases cases_of_settings? h with ⟨hform, hs⟩ | ⟨w, hform, hw⟩
  · exact iff_of_true hs fun forms hforms => by simp [hform] at hforms
  · obtain ⟨forms, rfl, hmap⟩ := ofJson?_eq_some_iff.1 hw
    have hapart : o.TellsApart ↔ (forms.map Setting.ofJson?).Nodup := by simp [TellsApart, hform]
    rw [hapart, hmap, List.nodup_map_iff (Option.some_injective _)]

/-- The form of a schema with a column of the given settings. -/
def lampsForm (settings : List Json) : Json :=
  .obj [("tables", .arr [.obj [("name", .str "lamps"), ("columns", .arr [.obj [("name", .str "serial"),
    ("data_type", .str "int"), ("settings", .arr settings)]])]])]

/-- A note behind two different settings. -/
theorem key_and_note_differ :
    (catalogForm (lampsForm [.obj [("kind", .str "primary_key")], .obj [("kind", .str "unique")]]) 0 0).settings? =
        some ⟨[.primaryKey, .unique]⟩ ∧
      ([Setting.note "serial", .unique].foldl Settings.insert ⟨[.primaryKey, .unique]⟩).toList.Nodup := by
  have hdecoded : (catalogForm (lampsForm [.obj [("kind", .str "primary_key")],
      .obj [("kind", .str "unique")]]) 0 0).settings? = some ⟨[.primaryKey, .unique]⟩ := rfl
  refine ⟨hdecoded, (nodup_settings_iff hdecoded _).2 fun forms hforms => ?_⟩
  obtain rfl : [Json.obj [("kind", .str "primary_key")], .obj [("kind", .str "unique")]] = forms :=
    Json.arr.inj (Option.some.inj hforms)
  decide

/-- A decoded schema can have a column that is unique twice. -/
theorem decoded_setting_stands_twice :
    (catalogForm (lampsForm [.obj [("kind", .str "unique")], .obj [("kind", .str "unique")]]) 0 0).settings? =
        some ⟨[.unique, .unique]⟩ ∧
      ¬ ∀ (o : Origin) (s : Settings) (added : List Setting), o.settings? = some s →
        (added.foldl Settings.insert s).toList.Nodup := by
  have hdecoded : (catalogForm (lampsForm [.obj [("kind", .str "unique")],
      .obj [("kind", .str "unique")]]) 0 0).settings? = some ⟨[.unique, .unique]⟩ := rfl
  exact ⟨hdecoded, fun hall => absurd (hall _ _ [] hdecoded) (by decide)⟩

end Origin
end Settings
end SeedData
