/-
Projects made from the command line. A run that is refused leaves the tree of files as it is
(`Arguments.Refused`). One that succeeds has written a file for each table of the schema and the report
(`Arguments.Makes`); no other file is left in the place of the project if a project that was there has been found
by its path (`project_is_made_or_tree_is_kept`).

A path that leads through a directory that is not there, and back out of it, is not found, though the
directories at its end can be made. A project in that place is neither noticed nor removed, and what the new one
does not write over stays (`ProjectPaths.Published.survivors`).
-/
import SeedData.Proofs.ProjectFiles
import SeedData.Proofs.RunRecords
import SeedData.Proofs.UniqueColumns
import SeedData.Proofs.WellFormedSchemas

namespace SeedData

/-! ## Runs from a file -/

section

variable {t : Tree} {path text : String} {options : Options} {prepared : Prepared} {run : Run}
  {notices : List Notice}

theorem text_of_generated (h : t.generated path options = (.ok (prepared, run), notices)) :
    ∃ text, t.readText path = .ok text ∧ (generateFromText text options).1 = .ok (prepared, run) := by
  unfold Tree.generated at h
  split at h
  · rename_i text htext
    refine ⟨text, htext, ?_⟩
    have hmapped := congrArg Prod.fst h
    cases hgenerate : (generateFromText text options).1 with
    | error fault =>
      rw [hgenerate] at hmapped
      cases hmapped
    | ok made =>
      rw [hgenerate] at hmapped
      cases hmapped
      rfl
  · cases h
  · cases h

/-- A run has the tables of the catalog, each once, and reports them. -/
theorem tables_of_run (h : (generateFromText text options).1 = .ok (prepared, run)) :
    run.dataset.tableNames.Perm prepared.schema.catalog.tableNames ∧ run.dataset.tableNames.Nodup ∧
      run.report.tables = run.dataset.tables.map (·.entry options) := by
  obtain ⟨⟨notices, hparse⟩, hprepared, hgenerate⟩ := run_of_generateFromText h
  have hd := Dbml.distinct_of_parse hparse
  rw [hprepared, Prepared.job_ofSchema] at hgenerate
  have hprogress := Job.progress_of_generate hgenerate
  have hnames : run.dataset.tableNames = _ := (hprogress.sound hd nodup_tables).inOrder
  rw [hnames]
  exact ⟨(List.perm_ext_iff_of_nodup nodup_tables hd.tables).2 fun _ => mem_tables_iff, nodup_tables,
    (hprogress.recorded hd nodup_tables).report⟩

/-- The names of the tables are such that each has a file of its own. -/
theorem isFileName_of_run (h : (generateFromText text options).1 = .ok (prepared, run)) :
    ∀ table ∈ run.dataset.tables, IsFileName (ProjectPaths.tableFile table.name) := by
  obtain ⟨⟨notices, hparse⟩, -, -⟩ := run_of_generateFromText h
  intro table htable
  have hmem : table.name ∈ prepared.schema.catalog.tableNames :=
    (tables_of_run h).1.mem_iff.1 (List.mem_map_of_mem htable)
  rw [Dbml.schema_of_parse hparse] at hmem
  obtain ⟨declared, hdeclared, hname⟩ := List.mem_map.1 hmem
  have hwell := (Dbml.wellFormed_draft text.toList).holds.catalog.tables declared hdeclared
  exact ProjectPaths.isFileName_tableFile (hname ▸ hwell.name)

end

/-! ## Making a project -/

/-- What is wrong before anything is written. -/
inductive Arguments.Refused (a : Arguments) (t : Tree) : Prop where
  | unnamed (h : a.projectName? = none)
  | unreadable (fault : DiskFault) (h : t.readText a.file = .error fault)
  | empty (text : String) (h : t.readText a.file = .ok text) (hparse : (Dbml.parse text).1 = none)
  | present (name : String) (h : a.projectName? = some name)
    (hfound : (t.locate (ProjectPaths.ofName a.out name).root).isOk = true) (hforce : a.force = false)

theorem Arguments.makeProject_eq (a : Arguments) (stamp : Stamp) (t : Tree) :
    (a.makeProject stamp : StateM Tree _) t =
      match a.projectName? with
      | none => ((.error (.unnamed a.file), []), t)
      | some name =>
        match t.generated a.file a.options with
        | (.error fault, notices) => ((.error (.source fault), notices), t)
        | (.ok (_, run), notices) =>
          match ((ProjectPaths.ofName a.out name).writeProject a.force run
            (projectReport name a.file stamp run) : StateM Tree _) t with
          | (.ok _, t') => ((.ok (run, (ProjectPaths.ofName a.out name).root), notices), t')
          | (.error complaint, t') => ((.error complaint, notices), t') := by
  unfold makeProject
  cases a.projectName? with
  | none => rfl
  | some name =>
    dsimp only
    rw [bind_apply, generateFromFile_eq]
    rcases t.generated a.file a.options with ⟨answer, notices⟩
    cases answer with
    | error fault => rfl
    | ok made =>
      dsimp only
      rw [bind_apply]
      rcases ((ProjectPaths.ofName a.out name).writeProject a.force made.2
        (projectReport name a.file stamp made.2) : StateM Tree _) t with ⟨answer, t'⟩
      cases answer <;> rfl

/-- A run that is refused answers so, and does nothing else. -/
theorem Arguments.Refused.answer {a : Arguments} {t : Tree} (h : a.Refused t) (stamp : Stamp) :
    ∃ complaint notices, (a.makeProject stamp : StateM Tree _) t = ((.error complaint, notices), t) ∧
      complaint.isOfDisk = false := by
  rw [makeProject_eq]
  cases hname : a.projectName? with
  | none => exact ⟨_, _, rfl, rfl⟩
  | some name =>
    dsimp only
    split
    · exact ⟨_, _, rfl, rfl⟩
    · rename_i hgenerated
      obtain ⟨text, htext, hrun⟩ := text_of_generated hgenerated
      obtain ⟨⟨notices, hparse⟩, -, -⟩ := run_of_generateFromText hrun
      cases h with
      | unnamed hnone => rw [hname] at hnone; cases hnone
      | unreadable fault hfault => rw [htext] at hfault; cases hfault
      | empty text' htext' hempty =>
        rw [htext] at htext'
        cases htext'
        rw [hparse] at hempty
        cases hempty
      | present name' hname' hfound hforce =>
        rw [hname] at hname'
        cases hname'
        rw [ProjectPaths.writeProject_eq, ProjectPaths.prepare_eq, if_pos hfound, if_pos hforce]
        exact ⟨_, _, rfl, rfl⟩

/-- Only what the disk refuses to write can leave anything behind a run that fails. -/
theorem Arguments.makeProject_error {a : Arguments} {stamp : Stamp} {t t' : Tree} {complaint : Complaint}
    {notices : List Notice} (h : (a.makeProject stamp : StateM Tree _) t = ((.error complaint, notices), t')) :
    complaint.isOfDisk = true ∨ t' = t := by
  rw [makeProject_eq] at h
  split at h
  · cases h
    exact .inr rfl
  · split at h
    · cases h
      exact .inr rfl
    · split at h
      · cases h
      · rename_i hwrite
        cases h
        exact ProjectPaths.writeProject_error hwrite

/-- What a run that succeeds has made of the tree: each table of the catalog has its file in the directory for
them, and the report tells of the tables that are written. -/
structure Arguments.Makes (a : Arguments) (stamp : Stamp) (name : String) (catalog : Catalog) (run : Run)
    (before after : Tree) : Prop where
  allowed : (before.locate (ProjectPaths.ofName a.out name).root).isOk = true → a.force = true
  tables : run.dataset.tableNames.Perm catalog.tableNames
  places : (run.dataset.tables.map fun table => (ProjectPaths.ofName a.out name).seedPlace before table.name).Nodup
  inside : ∀ table ∈ run.dataset.tables,
    before.placeOf (Path.join (ProjectPaths.ofName a.out name).seeds (ProjectPaths.tableFile table.name)) =
      (before.placeOf (ProjectPaths.ofName a.out name).seeds).child (ProjectPaths.tableFile table.name)
  published : (ProjectPaths.ofName a.out name).Published run (projectReport name a.file stamp run) before after
  report : (projectReport name a.file stamp run).fields? ["table_order", "generation"] =
    some [some (.arr (run.dataset.tableNames.map .str)), some run.report.toJson]
  reported : run.report.tables = run.dataset.tables.map (·.entry a.options)

theorem Arguments.makeProject_ok {a : Arguments} {stamp : Stamp} {t t' : Tree} {run : Run} {root : String}
    {notices : List Notice} (h : (a.makeProject stamp : StateM Tree _) t = ((.ok (run, root), notices), t')) :
    ∃ name text schema, a.projectName? = some name ∧ t.readText a.file = .ok text ∧
      (Dbml.parse text).1 = some schema ∧ root = (ProjectPaths.ofName a.out name).root ∧
      a.Makes stamp name schema.catalog run t t' := by
  rw [makeProject_eq] at h
  split at h
  · cases h
  · rename_i name hname
    split at h
    · cases h
    · rename_i prepared run' notices' hgenerated
      split at h
      · rename_i hwrite
        cases h
        obtain ⟨text, htext, hrun⟩ := text_of_generated hgenerated
        obtain ⟨⟨_, hparse⟩, -, -⟩ := run_of_generateFromText hrun
        obtain ⟨hperm, hnodup, hreported⟩ := tables_of_run hrun
        have hfiles := isFileName_of_run hrun
        have hroot := ProjectPaths.root_ne_empty a.out name
        obtain ⟨hallowed, hpublished⟩ := ProjectPaths.writeProject_ok hroot hfiles hnodup hwrite
        refine ⟨name, text, prepared.schema, hname, htext, congrArg Prod.fst hparse, rfl,
          hallowed, hperm, ?_, fun table htable => ?_, hpublished, rfl, hreported⟩
        · have hplaces := hnodup.map (f := (ProjectPaths.ofName a.out name).seedPlace t)
            fun _ _ hplace => ProjectPaths.seedPlace_inj hplace
          rwa [Dataset.tableNames, List.map_map] at hplaces
        · exact t.placeOf_join (Path.join_ne_empty _ ProjectPaths.isFileName_report.2.2.ne_empty)
            (hfiles table htable)
      · cases h

/-! ## The command -/

theorem Outcome.code_ofProject_eq_zero_iff (rows : UInt64) (answer : Except Complaint (Run × String))
    (notices : List Notice) : (ofProject rows (answer, notices)).code = 0 ↔ answer.isOk = true := by
  cases answer with
  | ok made => exact ⟨fun _ => rfl, fun _ => rfl⟩
  | error complaint =>
    rw [ofProject]
    split
    · show (101 : UInt32) = 0 ↔ false = true
      decide
    · show (1 : UInt32) = 0 ↔ false = true
      decide

theorem runCommand_of_request {arguments : List String} {a : Arguments}
    (h : Arguments.request arguments = .run a) (stamp : Stamp) (t : Tree) :
    (runCommand stamp arguments : StateM Tree _) t =
      (Outcome.ofProject a.rows ((a.makeProject stamp : StateM Tree _) t).1,
        ((a.makeProject stamp : StateM Tree _) t).2) := by
  rw [runCommand, h]
  rfl

/-- **A run makes the project or keeps the tree of files.** A run that is refused keeps it, and so does any other
that fails, unless the disk has refused to write. A run that succeeds has written what it is to write. No other
file is in the place of the project then, exactly if a project that was there has been found by its path, or no
other file was there. -/
theorem project_is_made_or_tree_is_kept (a : Arguments) (stamp : Stamp) (t : Tree) :
    ∃ answer notices after,
      (∀ arguments, Arguments.request arguments = .run a → (runCommand stamp arguments : StateM Tree _) t =
        (Outcome.ofProject a.rows (answer, notices), after)) ∧
      (a.makeProject stamp : StateM Tree _) t = ((answer, notices), after) ∧
      ((Outcome.ofProject a.rows (answer, notices)).code = 0 ↔ answer.isOk = true) ∧
      (a.Refused t → after = t ∧ ∃ complaint, answer = .error complaint ∧ complaint.isOfDisk = false) ∧
      (∀ complaint, answer = .error complaint → complaint.isOfDisk = true ∨ after = t) ∧
      ∀ run root, answer = .ok (run, root) → ∃ name text schema, a.projectName? = some name ∧
        t.readText a.file = .ok text ∧ (Dbml.parse text).1 = some schema ∧
        root = (ProjectPaths.ofName a.out name).root ∧ a.Makes stamp name schema.catalog run t after ∧
        ((∀ l content, l.isWithin (t.placeOf root) = true → (after.entry? l = some (.file content) ↔
            (ProjectPaths.ofName a.out name).Writes run (projectReport name a.file stamp run) t l content)) ↔
          (t.locate root).isOk = true ∨
            ∀ l content, l.isWithin (t.placeOf root) = true → t.entry? l = some (.file content) →
              (ProjectPaths.ofName a.out name).WritesTo run t l) := by
  rcases h : (a.makeProject stamp : StateM Tree _) t with ⟨⟨answer, notices⟩, after⟩
  refine ⟨answer, notices, after, fun arguments hrequest => ?_, rfl,
    Outcome.code_ofProject_eq_zero_iff _ _ _, fun hrefused => ?_, ?_, ?_⟩
  · rw [runCommand_of_request hrequest, h]
  · obtain ⟨complaint, notices', hanswer, hplain⟩ := hrefused.answer stamp
    rw [h] at hanswer
    cases hanswer
    exact ⟨rfl, complaint, rfl, hplain⟩
  · rintro complaint rfl
    exact Arguments.makeProject_error h
  · rintro run root rfl
    obtain ⟨name, text, schema, hname, htext, hparse, rfl, hmakes⟩ := Arguments.makeProject_ok h
    exact ⟨name, text, schema, hname, htext, hparse, rfl, hmakes, hmakes.published.exact_iff⟩

/-! ## A project that is there -/

/-- A schema, and beside it a project with a seed of a table that the schema does not have. -/
def stockTree : Tree :=
  ((((Tree.empty.put ⟨["stock.dbml"]⟩ (.file "Table stock \x7b\n id int\n\x7d\n".toUTF8)).put
    ⟨["dbt_stock"]⟩ .directory).put ⟨["seeds", "dbt_stock"]⟩ .directory).put
    ⟨["raw", "seeds", "dbt_stock"]⟩ .directory).put
    ⟨["stale.csv", "raw", "seeds", "dbt_stock"]⟩ (.file "id\n".toUTF8)

def stockArguments (out : String) (force : Bool) : Arguments := ⟨"stock.dbml", 10, 42, none, out, force, false⟩

/-- What the answer of a run names: the tables, and the directory they are in. -/
def namesMade : Except Complaint (Run × String) → Option (List String × String)
  | .ok (run, root) => some (run.dataset.tableNames, root)
  | .error _ => none

theorem exists_of_namesMade {answer : Except Complaint (Run × String)} {names : List String} {root : String}
    (h : namesMade answer = some (names, root)) :
    ∃ run, answer = .ok (run, root) ∧ run.dataset.tableNames = names := by
  cases answer with
  | error complaint => cases h
  | ok made =>
    cases h
    exact ⟨made.1, rfl, rfl⟩

def stockStamp : Stamp := ⟨"run", "today"⟩

theorem stock_is_replaced_by_force :
    (∃ complaint notices, ((stockArguments "." false).makeProject stockStamp : StateM Tree _) stockTree =
      ((.error complaint, notices), stockTree)) ∧
    ∃ run notices after, ((stockArguments "." true).makeProject stockStamp : StateM Tree _) stockTree =
        ((.ok (run, "./dbt_stock"), notices), after) ∧
      run.dataset.tableNames = ["stock"] ∧
      ∀ l content, l.isWithin ⟨["dbt_stock"]⟩ = true → (after.entry? l = some (.file content) ↔
        (ProjectPaths.ofName "." "stock").Writes run (projectReport "stock" "stock.dbml" stockStamp run) stockTree
          l content) := by
  have hname : ∀ force, (stockArguments "." force).projectName? = some "stock" := by decide +kernel
  constructor
  · obtain ⟨answer, notices, after, -, hanswer, -, hrefused, -⟩ :=
      project_is_made_or_tree_is_kept (stockArguments "." false) stockStamp stockTree
    obtain ⟨rfl, complaint, rfl, -⟩ := hrefused (.present "stock" (hname false) (by decide +kernel) rfl)
    exact ⟨complaint, notices, hanswer⟩
  · obtain ⟨answer, notices, after, -, hanswer, -, -, -, hmade⟩ :=
      project_is_made_or_tree_is_kept (stockArguments "." true) stockStamp stockTree
    have hnames : namesMade (((stockArguments "." true).makeProject stockStamp : StateM Tree _) stockTree).1.1 =
        some (["stock"], "./dbt_stock") := by decide +kernel
    rw [hanswer] at hnames
    obtain ⟨run, rfl, htables⟩ := exists_of_namesMade hnames
    obtain ⟨name, text, schema, hproject, -, -, -, -, hexact⟩ := hmade run "./dbt_stock" rfl
    rw [hname] at hproject
    cases hproject
    exact ⟨run, notices, after, hanswer, htables, hexact.2 (.inl (by decide +kernel))⟩

/-- The stale seed is in the place of the project after a run that may replace what is there, and one that may
not has made the project nonetheless. -/
theorem stale_seed_survives_detour :
    (∃ run notices after, ((stockArguments "gone/.." false).makeProject stockStamp : StateM Tree _) stockTree =
      ((.ok (run, "gone/../dbt_stock"), notices), after)) ∧
    stockTree.entry? (stockTree.placeOf "gone/../dbt_stock") = some .directory ∧
    ∃ run notices after, ((stockArguments "gone/.." true).makeProject stockStamp : StateM Tree _) stockTree =
        ((.ok (run, "gone/../dbt_stock"), notices), after) ∧
      run.dataset.tableNames = ["stock"] ∧
      (after.entry? ((ProjectPaths.ofName "gone/.." "stock").seedPlace stockTree "stale")).isSome := by
  have hmade : ∀ force, namesMade (((stockArguments "gone/.." force).makeProject stockStamp : StateM Tree _)
      stockTree).1.1 = some (["stock"], "gone/../dbt_stock") := by decide +kernel
  have hstale : (Tree.entry? (((stockArguments "gone/.." true).makeProject stockStamp : StateM Tree _) stockTree).2
      ((ProjectPaths.ofName "gone/.." "stock").seedPlace stockTree "stale")).isSome = true := by decide +kernel
  have hplace : stockTree.placeOf "gone/../dbt_stock" = ⟨["dbt_stock"]⟩ := by decide +kernel
  refine ⟨?_, ?_, ?_⟩
  · obtain ⟨run, hrun, -⟩ := exists_of_namesMade (hmade false)
    exact ⟨run, _, _, Prod.ext (Prod.ext hrun rfl) rfl⟩
  · rw [hplace]
    rfl
  · obtain ⟨run, hrun, htables⟩ := exists_of_namesMade (hmade true)
    exact ⟨run, _, _, Prod.ext (Prod.ext hrun rfl) rfl, htables, hstale⟩

end SeedData
