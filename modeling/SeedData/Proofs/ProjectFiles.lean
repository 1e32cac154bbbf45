/-
The files of a project, as a tree of files holds them. What a project reads and writes is said of the tree as a
whole: which files are there after it was prepared (`ProjectPaths.prepare_ok`), after its tables are written
(`Filled`) and after its report is (`Published`).
-/
import SeedData.Command.Project
import SeedData.Proofs.Identifiers
import SeedData.Proofs.TreeFacts

namespace SeedData

/-! ## Reading the schema -/

/-- The text of the file at a path. -/
def Tree.readText (t : Tree) (path : String) : Except DiskFault String :=
  match t.readBytes path with
  | .error fault => .error fault
  | .ok bytes =>
    match String.fromUTF8? bytes with
    | some text => .ok text
    | none => .error .notText

/-- What comes of the schema in a file of the tree. -/
def Tree.generated (t : Tree) (path : String) (options : Options) :
    Except FileFault (Prepared × Run) × List Notice :=
  match t.readText path with
  | .ok text => ((generateFromText text options).1.mapError .run, (generateFromText text options).2)
  | .error .notFound => (.error (.missing path), [])
  | .error fault => (.error (.unreadable fault), [])

theorem bind_apply {α β : Type} (x : StateM Tree α) (f : α → StateM Tree β) (t : Tree) :
    (x >>= f) t = f (x t).1 (x t).2 := rfl

theorem readText_eq (t : Tree) (path : String) : (Disk.readText path : StateM Tree _) t = (t.readText path, t) := by
  unfold Disk.readText Tree.readText
  rw [bind_apply]
  simp only [Disk.readBytes]
  cases t.readBytes path with
  | error fault => rfl
  | ok bytes =>
    dsimp only
    cases String.fromUTF8? bytes <;> rfl

theorem generateFromFile_eq (t : Tree) (path : String) (options : Options) :
    (generateFromFile path options : StateM Tree _) t = (t.generated path options, t) := by
  unfold generateFromFile readSchema Tree.generated
  rw [bind_apply, bind_apply, readText_eq]
  cases t.readText path with
  | error fault => cases fault <;> rfl
  | ok text => rfl

/-! ## Preparing and writing -/

/-- Whether the complaint is about what the disk refused to write. -/
def Complaint.isOfDisk : Complaint → Bool
  | directory _ | table _ => true
  | _ => false

theorem Complaint.isOfDisk_of_mapError {complaint : Complaint} {answer : Except DiskFault Unit}
    (h : answer.mapError directory = .error complaint) : complaint.isOfDisk = true := by
  cases answer with
  | ok _ => cases h
  | error fault =>
    cases h
    rfl

namespace ProjectPaths

variable {p : ProjectPaths} {force : Bool} {t t' : Tree} {tables : List DataTable}

/-- The place of the project. -/
def place (p : ProjectPaths) (t : Tree) : Location := t.placeOf p.root

/-- The place of the file of a table. -/
def seedPlace (p : ProjectPaths) (t : Tree) (table : String) : Location :=
  (((p.place t).child "seeds").child "raw").child (tableFile table)

def reportPlace (p : ProjectPaths) (t : Tree) : Location := (p.place t).child report

/-- Where the report is while it is written. -/
def draftPlace (p : ProjectPaths) (t : Tree) : Location := (p.place t).child (Tree.unfinished report)

theorem prepare_eq (p : ProjectPaths) (force : Bool) (t : Tree) :
    (p.prepare force : StateM Tree _) t =
      if (t.locate p.root).isOk then
        if force = false then (.error (.projectExists p.root), t)
        else match t.removeDirectory p.root with
          | (.error fault, t') => (.error (.directory fault), t')
          | (.ok _, t') => ((t'.makeDirectories p.seeds).1.mapError .directory, (t'.makeDirectories p.seeds).2)
      else ((t.makeDirectories p.seeds).1.mapError .directory, (t.makeDirectories p.seeds).2) := by
  unfold prepare
  simp only [Disk.hasPath, Disk.removeDirectory, Disk.makeDirectories, bind_apply]
  split
  · cases force with
    | false => rfl
    | true =>
      rw [if_neg (by decide), if_neg (by decide), bind_apply]
      rcases t.removeDirectory p.root with ⟨answer, t'⟩
      cases answer <;> rfl
  · rfl

theorem writeTables_cons (p : ProjectPaths) (table : DataTable) (rest : List DataTable) (t : Tree) :
    (p.writeTables (table :: rest) : StateM Tree _) t =
      match t.write p.seeds (tableFile table.name) table.csv.toUTF8 with
      | (.ok _, t') => (p.writeTables rest : StateM Tree _) t'
      | (.error fault, t') => (.error (.table fault), t') := by
  rw [writeTables, bind_apply]
  simp only [Disk.write]
  rcases t.write p.seeds (tableFile table.name) table.csv.toUTF8 with ⟨answer, t'⟩
  cases answer <;> rfl

theorem writeProject_eq (p : ProjectPaths) (force : Bool) (run : Run) (report : Json) (t : Tree) :
    (p.writeProject force run report : StateM Tree _) t =
      match (p.prepare force : StateM Tree _) t with
      | (.error complaint, t') => (.error complaint, t')
      | (.ok _, t') =>
        match (p.writeTables run.dataset.tables : StateM Tree _) t' with
        | (.error complaint, t') => (.error complaint, t')
        | (.ok _, t') =>
          ((t'.replace p.root ProjectPaths.report report.pretty.toUTF8).1.mapError .directory,
            (t'.replace p.root ProjectPaths.report report.pretty.toUTF8).2) := by
  unfold writeProject
  rw [bind_apply]
  rcases (p.prepare force : StateM Tree _) t with ⟨answer, t'⟩
  cases answer with
  | error complaint => rfl
  | ok _ =>
    dsimp only
    rw [bind_apply]
    rcases (p.writeTables run.dataset.tables : StateM Tree _) t' with ⟨answer, t'⟩
    cases answer <;> rfl

/-! ## What is kept after a failure -/

section

variable {complaint : Complaint}

theorem prepare_error (h : (p.prepare force : StateM Tree _) t = (.error complaint, t')) :
    complaint.isOfDisk = true ∨ t' = t := by
  rw [prepare_eq] at h
  split at h
  · split at h
    · cases h
      exact .inr rfl
    · split at h
      · cases h
        exact .inl rfl
      · exact .inl (Complaint.isOfDisk_of_mapError (congrArg Prod.fst h))
  · exact .inl (Complaint.isOfDisk_of_mapError (congrArg Prod.fst h))

theorem writeTables_error (h : (p.writeTables tables : StateM Tree _) t = (.error complaint, t')) :
    complaint.isOfDisk = true := by
  induction tables generalizing t with
  | nil => cases h
  | cons table rest ih =>
    rw [writeTables_cons] at h
    split at h
    · exact ih h
    · cases h
      rfl

/-- Only what the disk refuses can leave a project half written. -/
theorem writeProject_error {run : Run} {json : Json}
    (h : (p.writeProject force run json : StateM Tree _) t = (.error complaint, t')) :
    complaint.isOfDisk = true ∨ t' = t := by
  rw [writeProject_eq] at h
  split at h
  · rename_i hprepare
    cases h
    exact prepare_error hprepare
  · split at h
    · rename_i hwrite
      cases h
      exact .inl (writeTables_error hwrite)
    · exact .inl (Complaint.isOfDisk_of_mapError (congrArg Prod.fst h))

end

/-! ## What is where after a success -/

theorem isFileName_report : IsFileName report ∧ IsFileName "seeds" ∧ IsFileName "raw" :=
  ⟨⟨by decide, by decide, by decide⟩, ⟨by decide, by decide, by decide⟩, ⟨by decide, by decide, by decide⟩⟩

/-- The directory of the tables' files. -/
def seedsPlace (p : ProjectPaths) (t : Tree) : Location := ((p.place t).child "seeds").child "raw"

theorem placeOf_seeds (hroot : p.root ≠ "") (t : Tree) : t.placeOf p.seeds = p.seedsPlace t := by
  obtain ⟨-, hseeds, hraw⟩ := isFileName_report
  rw [seeds, t.placeOf_join (Path.join_ne_empty _ hseeds.ne_empty) hraw, t.placeOf_join hroot hseeds]
  rfl

theorem seeds_made (hroot : p.root ≠ "") (h : ((t.makeDirectories p.seeds).1.mapError Complaint.directory,
    (t.makeDirectories p.seeds).2) = (.ok (), t')) :
    t.Grows t' ∧ t'.entry? (p.seedsPlace t) = some .directory := by
  have hok : t.makeDirectories p.seeds = (.ok (), t') := by
    rcases hmake : t.makeDirectories p.seeds with ⟨answer, t''⟩
    rw [hmake] at h
    cases answer with
    | error fault => cases h
    | ok _ =>
      cases h
      rfl
  rw [← placeOf_seeds hroot]
  exact Tree.makeDirectories_ok hok

/-- Preparing removes a project that is found by its path, and adds directories. -/
theorem prepare_ok (hroot : p.root ≠ "") (h : (p.prepare force : StateM Tree _) t = (.ok (), t')) :
    ((t.locate p.root).isOk = true → force = true) ∧ t'.start = t.start ∧
      t'.entry? (p.seedsPlace t) = some .directory ∧
      ∀ l content, t'.entry? l = some (.file content) ↔
        t.entry? l = some (.file content) ∧ ¬ ((t.locate p.root).isOk = true ∧ l.isWithin (p.place t) = true) := by
  rw [prepare_eq] at h
  split at h
  · rename_i hfound
    split at h
    · cases h
    · rename_i hforce
      rcases hremove : t.removeDirectory p.root with ⟨answer, t''⟩
      rw [hremove] at h
      cases answer with
      | error fault => cases h
      | ok _ =>
        obtain ⟨-, rfl⟩ := Tree.removeDirectory_ok hremove
        obtain ⟨hgrows, hdirectory⟩ := seeds_made hroot h
        refine ⟨fun _ => by simpa using hforce, hgrows.start, hdirectory, fun l content => ?_⟩
        rw [hgrows.file, Tree.file_prune, place]
        simp [hfound]
  · rename_i hfound
    obtain ⟨hgrows, hdirectory⟩ := seeds_made hroot h
    refine ⟨fun h => absurd h hfound, hgrows.start, hdirectory, fun l content => ?_⟩
    rw [hgrows.file]
    simp [hfound]

/-- The files of the tables are in the directory that the path of it means, and nothing else is changed. -/
structure Filled (p : ProjectPaths) (tables : List DataTable) (t t' : Tree) : Prop where
  start : t'.start = t.start
  keeps : t.KeepsDirectories t'
  files : ∀ l content, t'.entry? l = some (.file content) ↔
    (∃ table ∈ tables, l = p.seedPlace t table.name ∧ content = table.csv.toUTF8) ∨
      (t.entry? l = some (.file content) ∧ ∀ table ∈ tables, l ≠ p.seedPlace t table.name)
  readable : ∀ table ∈ tables, t'.locate p.seeds = .ok (p.seedsPlace t) ∧
    t'.entry? (p.seedsPlace t) = some .directory ∧ Tree.isLongName (tableFile table.name) = false ∧
      Tree.isLongPath (Path.join p.seeds (tableFile table.name)) = false

theorem seedPlace_inj {table other : String} (h : p.seedPlace t table = p.seedPlace t other) : table = other := by
  have hfile : tableFile table = tableFile other := Location.child_inj h
  have hchars := congrArg String.toList hfile
  rw [tableFile, tableFile, String.toList_append, String.toList_append] at hchars
  exact String.toList_inj.1 (List.append_cancel_right hchars)

/-- The files after a table and then others are written, from those after the others are. -/
theorem files_cons {table : DataTable} {l : Location} {content : ByteArray}
    (hnew : table.name ∉ tables.map (·.name)) :
    (∃ other ∈ tables, l = p.seedPlace t other.name ∧ content = other.csv.toUTF8) ∨
        (Tree.entry? (t.put (p.seedPlace t table.name) (.file table.csv.toUTF8)) l = some (.file content) ∧
          ∀ other ∈ tables, l ≠ p.seedPlace t other.name) ↔
      (∃ other ∈ table :: tables, l = p.seedPlace t other.name ∧ content = other.csv.toUTF8) ∨
        (t.entry? l = some (.file content) ∧ ∀ other ∈ table :: tables, l ≠ p.seedPlace t other.name) := by
  have hput := Tree.entry?_put t (l := p.seedPlace t table.name) Location.child_ne_root (.file table.csv.toUTF8) l
  rw [hput]
  by_cases hl : l = p.seedPlace t table.name
  case pos =>
    -- No other table is written over this one: their names differ.
    have hothers : ∀ other ∈ tables, l ≠ p.seedPlace t other.name := by
      intro other hother heq
      exact hnew (seedPlace_inj (hl.symm.trans heq) ▸ List.mem_map_of_mem hother)
    rw [if_pos hl]
    constructor
    · rintro (⟨other, hother, heq, -⟩ | ⟨hsame, -⟩)
      · exact absurd heq (hothers other hother)
      · cases hsame
        exact .inl ⟨table, List.mem_cons_self, hl, rfl⟩
    · rintro (⟨other, hother, heq, rfl⟩ | ⟨-, hnone⟩)
      · rcases List.mem_cons.1 hother with rfl | hother
        · exact .inr ⟨rfl, hothers⟩
        · exact absurd heq (hothers other hother)
      · exact absurd hl (hnone table List.mem_cons_self)
  case neg =>
    rw [if_neg hl]
    simp [hl]

theorem writeTables_ok (hroot : p.root ≠ "") (hnodup : (tables.map (·.name)).Nodup)
    (h : (p.writeTables tables : StateM Tree _) t = (.ok (), t')) : p.Filled tables t t' := by
  induction tables generalizing t with
  | nil =>
    cases h
    exact ⟨rfl, fun _ hl => hl, by simp, by simp⟩
  | cons table rest ih =>
    rw [List.map_cons, List.nodup_cons] at hnodup
    rw [writeTables_cons] at h
    split at h
    · rename_i t'' hwrite
      obtain ⟨hpath, hlong, l, hlocate, hl, hfree, rfl⟩ := Tree.write_ok hwrite
      obtain rfl : l = p.seedsPlace t := by
        rw [Tree.placeOf_of_locate hlocate, placeOf_seeds hroot]
      have hkeep := Tree.keepsDirectories_put Location.child_ne_root hfree (.file table.csv.toUTF8)
      have hfilled := ih hnodup.2 h
      have hkeeps := hkeep.trans hfilled.keeps
      refine ⟨hfilled.start, hkeeps, fun l content => ?_, fun other hother => ?_⟩
      · exact (hfilled.files l content).trans (files_cons (p := p) (t := t) hnodup.1)
      · refine ⟨hkeeps.locate hfilled.start hlocate hl, hkeeps _ hl, ?_⟩
        rcases List.mem_cons.1 hother with rfl | hother
        · exact ⟨hlong, hpath⟩
        · exact (hfilled.readable other hother).2.2
    · cases h

/-- What a project has written at a place. -/
def Writes (p : ProjectPaths) (run : Run) (json : Json) (t : Tree) (l : Location) (content : ByteArray) : Prop :=
  (∃ table ∈ run.dataset.tables, l = p.seedPlace t table.name ∧ content = table.csv.toUTF8) ∨
    (l = p.reportPlace t ∧ content = json.pretty.toUTF8)

/-- Where a project writes. -/
def WritesTo (p : ProjectPaths) (run : Run) (t : Tree) (l : Location) : Prop :=
  (∃ table ∈ run.dataset.tables, l = p.seedPlace t table.name) ∨ l = p.reportPlace t ∨ l = p.draftPlace t

/-- A project is written: its files are read at their paths, and of the files before those stay that it has
not written over, outside its place, and inside it only if no project was found by its path. -/
structure Published (p : ProjectPaths) (run : Run) (json : Json) (before after : Tree) : Prop where
  tables : ∀ table ∈ run.dataset.tables,
    after.readBytes (Path.join p.seeds (tableFile table.name)) = .ok table.csv.toUTF8
  report : after.readBytes (Path.join p.root report) = .ok json.pretty.toUTF8
  files : ∀ l content, after.entry? l = some (.file content) ↔ p.Writes run json before l content ∨
    (before.entry? l = some (.file content) ∧ ¬ p.WritesTo run before l ∧
      ¬ ((before.locate p.root).isOk = true ∧ l.isWithin (p.place before) = true))

theorem Writes.writesTo {run : Run} {json : Json} {l : Location} {content : ByteArray}
    (h : p.Writes run json t l content) : p.WritesTo run t l := by
  rcases h with ⟨table, htable, hl, -⟩ | ⟨hl, -⟩
  · exact .inl ⟨table, htable, hl⟩
  · exact .inr (.inl hl)

/-- The files in the place of a project are those that it has written, exactly if a project that was there has
been found by its path, or no other file was there. -/
theorem Published.exact_iff {run : Run} {json : Json} (h : p.Published run json t t') :
    (∀ l content, l.isWithin (p.place t) = true →
      (t'.entry? l = some (.file content) ↔ p.Writes run json t l content)) ↔
    (t.locate p.root).isOk = true ∨
      ∀ l content, l.isWithin (p.place t) = true → t.entry? l = some (.file content) → p.WritesTo run t l := by
  constructor
  · intro hexact
    by_cases hfound : (t.locate p.root).isOk = true
    case pos => exact .inl hfound
    case neg =>
      refine .inr fun l content hin hold => Classical.byContradiction fun hfree => ?_
      have hkept := (h.files l content).2 (.inr ⟨hold, hfree, fun hwithin => hfound hwithin.1⟩)
      exact hfree ((hexact l content hin).1 hkept).writesTo
  · intro hclear l content hin
    rw [h.files]
    refine ⟨fun hfile => hfile.resolve_right ?_, .inl⟩
    rintro ⟨hold, hfree, hkept⟩
    rcases hclear with hfound | honly
    · exact hkept ⟨hfound, hin⟩
    · exact hfree (honly l content hin hold)

/-- Of a project in the place that a way through a missing directory leads to, the files that are not written
over stay. -/
theorem Published.survivors {before after : Tree} {gone project : String} {run : Run} {json : Json}
    (h : (ofName (Path.join gone "..") project).Published run json before after)
    (hgone : IsFileName gone) (hmissing : before.entry? (before.start.child gone) = none)
    {l : Location} {content : ByteArray} (hold : before.entry? l = some (.file content))
    (hfree : ¬ (ofName (Path.join gone "..") project).WritesTo run before l) :
    after.entry? l = some (.file content) := by
  refine (h.files l content).2 (.inr ⟨hold, hfree, fun hfound => ?_⟩)
  have hmissed : (before.locate (ofName (Path.join gone "..") project).root).isOk = false :=
    (Tree.locate_detour hgone hmissing _).1
  rw [hmissed] at hfound
  exact Bool.false_ne_true hfound.1

theorem child_ne_seedPlace (p : ProjectPaths) (t : Tree) (name table : String) :
    (p.place t).child name ≠ p.seedPlace t table := by
  intro h
  have hlength := congrArg (fun l : Location => l.names.length) h
  simp [seedPlace, Location.child] at hlength

/-- The files after the report is written, from those after the tables are. -/
theorem files_of_steps {run : Run} {json : Json} {filled after : Tree} {l : Location} {content : ByteArray}
    (hfilled : filled.entry? l = some (.file content) ↔
      (∃ table ∈ run.dataset.tables, l = p.seedPlace t table.name ∧ content = table.csv.toUTF8) ∨
        ((t.entry? l = some (.file content) ∧
            ¬ ((t.locate p.root).isOk = true ∧ l.isWithin (p.place t) = true)) ∧
          ∀ table ∈ run.dataset.tables, l ≠ p.seedPlace t table.name))
    (hafter : after.entry? l = if l = p.reportPlace t then some (.file json.pretty.toUTF8)
      else if l = p.draftPlace t then none else filled.entry? l) :
    after.entry? l = some (.file content) ↔ p.Writes run json t l content ∨
      (t.entry? l = some (.file content) ∧ ¬ p.WritesTo run t l ∧
        ¬ ((t.locate p.root).isOk = true ∧ l.isWithin (p.place t) = true)) := by
  rw [hafter]
  by_cases hreport : l = p.reportPlace t
  case pos =>
    rw [if_pos hreport]
    constructor
    · intro h
      cases h
      exact .inl (.inr ⟨hreport, rfl⟩)
    · rintro ((⟨table, -, heq, -⟩ | ⟨-, rfl⟩) | ⟨-, hfree, -⟩)
      · exact absurd (hreport.symm.trans heq) (child_ne_seedPlace p t _ _)
      · rfl
      · exact absurd (.inr (.inl hreport)) hfree
  case neg =>
    rw [if_neg hreport]
    by_cases hdraft : l = p.draftPlace t
    case pos =>
      rw [if_pos hdraft]
      constructor
      · intro h
        cases h
      · rintro ((⟨table, -, heq, -⟩ | ⟨heq, -⟩) | ⟨-, hfree, -⟩)
        · exact absurd (hdraft.symm.trans heq) (child_ne_seedPlace p t _ _)
        · exact absurd heq hreport
        · exact absurd (.inr (.inr hdraft)) hfree
    case neg =>
      rw [if_neg hdraft, hfilled]
      constructor
      · rintro (hseed | ⟨⟨hold, hkept⟩, hfree⟩)
        · exact .inl (.inl hseed)
        · refine .inr ⟨hold, ?_, hkept⟩
          rintro (⟨table, htable, heq⟩ | heq | heq)
          · exact hfree table htable heq
          · exact hreport heq
          · exact hdraft heq
      · rintro ((hseed | ⟨heq, -⟩) | ⟨hold, hfree, hkept⟩)
        · exact .inl hseed
        · exact absurd heq hreport
        · exact .inr ⟨⟨hold, hkept⟩, fun table htable heq => hfree (.inl ⟨table, htable, heq⟩)⟩

/-- A project whose files and report are written after it was prepared is published. -/
theorem published_of_steps {run : Run} {json : Json} {prepared filled after : Tree}
    (hnames : ∀ table ∈ run.dataset.tables, IsFileName (tableFile table.name))
    (hstart : prepared.start = t.start)
    (hprepared : ∀ l content, prepared.entry? l = some (.file content) ↔
      t.entry? l = some (.file content) ∧ ¬ ((t.locate p.root).isOk = true ∧ l.isWithin (p.place t) = true))
    (hfilled : p.Filled run.dataset.tables prepared filled)
    (hreplace : filled.replace p.root report json.pretty.toUTF8 = (.ok (), after)) :
    p.Published run json t after := by
  obtain ⟨l, hlocate, hl, hpath, -, hreport, hdraft, hstart', hentries⟩ := Tree.replace_ok hreplace
  have hplaces : ∀ {s : Tree}, s.start = t.start → p.place s = p.place t := fun h => Tree.placeOf_congr h p.root
  have hseed : ∀ table, p.seedPlace prepared table = p.seedPlace t table := by
    intro table
    rw [seedPlace, seedPlace, hplaces hstart]
  obtain rfl : l = p.place t := by
    rw [Tree.placeOf_of_locate hlocate]
    exact hplaces (hfilled.start.trans hstart)
  -- Replacing the report takes no directory away, so the tables are still found by their paths.
  have hkeep : filled.KeepsDirectories after := by
    intro k hk
    rw [hentries, if_neg, if_neg]
    · exact hk
    · rintro rfl
      exact hdraft hk
    · rintro rfl
      exact hreport hk
  have hfiles : ∀ l content, after.entry? l = some (.file content) ↔ p.Writes run json t l content ∨
      (t.entry? l = some (.file content) ∧ ¬ p.WritesTo run t l ∧
        ¬ ((t.locate p.root).isOk = true ∧ l.isWithin (p.place t) = true)) := by
    intro l content
    have hfill := hfilled.files l content
    simp only [hseed, hprepared] at hfill
    exact files_of_steps hfill (hentries l)
  refine ⟨fun table htable => ?_, ?_, hfiles⟩
  · obtain ⟨hseeds, hdirectory, hlong, hlongPath⟩ := hfilled.readable table htable
    refine Tree.readBytes_join (hnames table htable) hlong hlongPath (hkeep.locate hstart' hseeds hdirectory)
      (hkeep _ hdirectory) ?_
    show after.entry? (p.seedPlace prepared table.name) = _
    rw [hseed]
    exact (hfiles _ _).2 (.inl (.inl ⟨table, htable, rfl, rfl⟩))
  · exact Tree.readBytes_join isFileName_report.1 (by decide +kernel) (Tree.isLongPath_of_unfinished hpath)
      (hkeep.locate hstart' hlocate hl) (hkeep _ hl) ((hfiles _ _).2 (.inl (.inr ⟨rfl, rfl⟩)))

theorem writeProject_ok {run : Run} {json : Json} (hroot : p.root ≠ "")
    (hnames : ∀ table ∈ run.dataset.tables, IsFileName (tableFile table.name))
    (hnodup : (run.dataset.tables.map (·.name)).Nodup)
    (h : (p.writeProject force run json : StateM Tree _) t = (.ok (), t')) :
    ((t.locate p.root).isOk = true → force = true) ∧ p.Published run json t t' := by
  rw [writeProject_eq] at h
  split at h
  · cases h
  · rename_i prepared hprepare
    split at h
    · cases h
    · rename_i filled hfill
      obtain ⟨hforce, hstart, -, hprepared⟩ := prepare_ok hroot hprepare
      have hfilled := writeTables_ok hroot hnodup hfill
      rcases hreplace : filled.replace p.root report json.pretty.toUTF8 with ⟨answer, after⟩
      rw [hreplace] at h
      cases answer with
      | error fault => cases h
      | ok _ =>
        cases h
        exact ⟨hforce, published_of_steps hnames hstart hprepared hfilled hreplace⟩

/-- The file of a table that goes by an identifier is one of the directory it is written to. -/
theorem isFileName_tableFile {table : String} (h : Identifier.IsIdentifier table) : IsFileName (tableFile table) := by
  have hlength : 4 ≤ (tableFile table).toList.length := by
    rw [tableFile, String.toList_append, List.length_append]
    exact Nat.le_add_left _ _
  have hother : ∀ {name : String}, name.toList.length < 4 → tableFile table ≠ name := by
    rintro name hshort rfl
    omega
  refine ⟨?_, hother (by decide), ?_⟩
  · rw [Path.isIdle, beq_false_of_ne (hother (by decide)), beq_false_of_ne (hother (by decide))]
    rfl
  · rw [tableFile, String.toList_append, List.mem_append]
    rintro (hslash | hslash)
    · exact absurd (h.plain '/' hslash) (by decide)
    · exact absurd hslash (by decide)

theorem root_ne_empty (out name : String) : (ofName out name).root ≠ "" := by
  refine Path.join_ne_empty out fun h => ?_
  have hlength := congrArg (fun s : String => s.toList.length) h
  simp at hlength

end ProjectPaths

end SeedData
