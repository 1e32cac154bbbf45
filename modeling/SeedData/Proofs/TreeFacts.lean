/-
What the operations of a tree of files do to it. The place that a path means is found from its names alone
(`Tree.placeOf`); where a path leads somewhere, it leads there (`placeOf_of_locate`). Making directories adds
directories and changes nothing else (`Grows`); a file is written where its path means, and is read back from
there (`write_ok`, `readBytes_join`).
-/
import SeedData.Disk.Tree

namespace SeedData

theorem SortedMap.get?_filter {κ ν : Type} [KeyOrder κ] [DecidableEq κ] (m : SortedMap κ ν) (p : κ → Bool)
    (k : κ) : (m.filter fun e => p e.1).get? k = if p k then m.get? k else none := by
  refine Option.ext fun v => ?_
  rw [SortedMap.get?_eq_some_iff]
  show (k, v) ∈ m.entries.filter _ ↔ _
  rw [List.mem_filter, ← SortedMap.get?_eq_some_iff]
  split
  · rename_i hk
    simp [hk]
  · rename_i hk
    simp [hk]

/-! ## Places -/

namespace Location

variable {l k directory : Location} {name other : String}

theorem child_ne_root : l.child name ≠ root := by
  simp [child, root]

theorem child_inj (h : l.child name = l.child other) : name = other := by
  simpa [child] using h

/-- The place that a name leads to, whether something is there or not. -/
def follow (here : Location) (name : String) : Location :=
  if Path.isIdle name then here else if name = ".." then here.parent else here.child name

theorem follow_back (l : Location) (name : String) : (l.child name).follow ".." = l := rfl

end Location

/-- A name that leads below the directory it is looked up in. -/
structure IsFileName (name : String) : Prop where
  lasting : Path.isIdle name = false
  below : name ≠ ".."
  unbroken : '/' ∉ name.toList

theorem IsFileName.ne_empty {name : String} (h : IsFileName name) : name ≠ "" := by
  rintro rfl
  exact absurd h.lasting (by decide)

theorem IsFileName.follow {name : String} (h : IsFileName name) (l : Location) : l.follow name = l.child name := by
  rw [Location.follow, h.lasting, if_neg Bool.false_ne_true, if_neg h.below]

/-! ## Paths -/

namespace Path

theorem splitOn_unbroken {x : List Char} (h : '/' ∉ x) : Text.splitOn (· == '/') x = [x] := by
  induction x with
  | nil => rfl
  | cons c x ih =>
    rw [List.mem_cons, not_or] at h
    rw [Text.splitOn, if_neg (by simpa using Ne.symm h.1), ih h.2]

/-- The names of a path in a directory are those of the directory and its own, but for an empty one. -/
theorem pieces_join (directory : String) {name : String} (h : '/' ∉ name.toList) :
    ∃ names, pieces (join directory name) = names ++ [name] ∧
      (pieces directory = names ∨ pieces directory = names ++ [""]) := by
  have hsplit : ∀ x, (Text.splitOn (· == '/') (x ++ '/' :: name.toList)).map String.ofList =
      (Text.splitOn (· == '/') x).map String.ofList ++ [name] := by
    intro x
    rw [Text.splitOn_at rfl, splitOn_unbroken h, List.map_append, List.map_singleton, String.ofList_toList]
  unfold pieces join
  split
  · rename_i hslash
    obtain ⟨x, hx⟩ := List.getLast?_eq_some_iff.1 hslash
    refine ⟨(Text.splitOn (· == '/') x).map String.ofList, ?_, .inr ?_⟩
    · rw [String.toList_append, hx, List.append_assoc, List.singleton_append, hsplit]
    · rw [hx, Text.splitOn_at rfl, List.map_append]
      rfl
  · refine ⟨_, ?_, .inl rfl⟩
    rw [String.toList_append, String.toList_append, List.append_assoc]
    exact hsplit _

theorem join_ne_empty (directory : String) {name : String} (h : name ≠ "") : join directory name ≠ "" := by
  intro hjoin
  have hlist := congrArg String.toList hjoin
  unfold join at hlist
  split at hlist <;> simp_all

theorem head?_join {directory : String} (h : directory ≠ "") (name : String) :
    (join directory name).toList.head? = directory.toList.head? := by
  have hne : directory.toList ≠ [] := by simpa using h
  have hhead : ∀ x, (directory.toList ++ x).head? = directory.toList.head? := by
    intro x
    cases hd : directory.toList with
    | nil => exact absurd hd hne
    | cons c d => rfl
  unfold join
  split
  · rw [String.toList_append, hhead]
  · rw [String.toList_append, String.toList_append, List.append_assoc, hhead]

/-- A path that goes into a directory, back out of it and on. -/
def detour (name rest : String) : String := join (join name "..") rest

theorem toList_detour {name : String} (h : '/' ∉ name.toList) (rest : String) :
    (detour name rest).toList = name.toList ++ '/' :: ("..".toList ++ '/' :: rest.toList) := by
  have hname : name.toList.getLast? ≠ some '/' := fun hlast => h (List.mem_of_getLast? hlast)
  have hback : (name ++ "/" ++ "..").toList.getLast? ≠ some '/' := by simp
  rw [detour, join, join, if_neg hname, if_neg hback]
  simp

theorem pieces_detour {name : String} (h : '/' ∉ name.toList) (rest : String) :
    pieces (detour name rest) = name :: ".." :: pieces rest := by
  rw [pieces, toList_detour h, Text.splitOn_at rfl, Text.splitOn_at rfl, splitOn_unbroken h, splitOn_unbroken (by decide)]
  simp [pieces]

theorem pieces_here (rest : String) : pieces (join "." rest) = "." :: pieces rest := by
  rw [pieces, join, if_neg (by decide), String.toList_append, String.toList_append, List.append_assoc]
  exact congrArg (List.map String.ofList) (Text.splitOn_at rfl ['.'] rest.toList)

end Path

namespace Tree

variable {s t t' : Tree} {l here : Location} {e : Entry} {names : List String} {path directory name : String}
  {content : ByteArray}

/-! ## Entries -/

theorem entry?_root (t : Tree) : t.entry? Location.root = some .directory := if_pos rfl

theorem entry?_put (t : Tree) (hl : l ≠ Location.root) (e : Entry) (k : Location) :
    Tree.entry? (t.put l e) k = if k = l then some e else t.entry? k := by
  unfold entry? put
  by_cases hk : k = Location.root
  · rw [if_pos hk, if_pos hk, if_neg fun h : k = l => hl (h ▸ hk)]
  · rw [if_neg hk, if_neg hk, SortedMap.get?_insert]

theorem entry?_prune (t : Tree) (directory k : Location) :
    Tree.entry? (t.prune directory) k = if k ≠ Location.root ∧ k.isWithin directory then none else t.entry? k := by
  unfold entry? prune
  by_cases hk : k = Location.root
  · simp [hk]
  · have hfilter := SortedMap.get?_filter t.entries (fun k : Location => !k.isWithin directory) k
    rw [if_neg hk, if_neg hk]
    refine hfilter.trans ?_
    cases k.isWithin directory <;> simp [hk]

/-! ## Walking -/

/-- The place that a path means, whether something is there or not. -/
def placeOf (t : Tree) (path : String) : Location := (Path.pieces path).foldl Location.follow (t.origin path)

theorem walk_ok (h : t.walk here names = .ok l) : l = names.foldl Location.follow here := by
  induction names generalizing here with
  | nil =>
    cases h
    rfl
  | cons name names ih =>
    rw [walk] at h
    rw [List.foldl_cons, Location.follow]
    split at h
    · cases h
    · cases h
    · split at h
      · rename_i hidle
        rw [if_pos hidle]
        exact ih h
      · rename_i hidle
        rw [if_neg hidle]
        split at h
        · rename_i hup
          rw [if_pos hup]
          exact ih h
        · rename_i hup
          rw [if_neg hup]
          split at h
          · cases h
          · split at h
            · exact ih h
            · cases h

theorem walk_append (t : Tree) (here : Location) (names rest : List String) :
    t.walk here (names ++ rest) = (t.walk here names).bind fun l => t.walk l rest := by
  induction names generalizing here with
  | nil => rfl
  | cons name names ih =>
    rw [List.cons_append, walk, walk]
    split
    · rfl
    · rfl
    · split
      · exact ih _
      · split
        · exact ih _
        · split
          · rfl
          · split
            · exact ih _
            · rfl

/-- A walk that ends in a directory starts in one. -/
theorem directory_of_walk (h : t.walk here names = .ok l) (hl : t.entry? l = some .directory) :
    t.entry? here = some .directory := by
  cases names with
  | nil =>
    cases h
    exact hl
  | cons name names =>
    rw [walk] at h
    split at h
    · cases h
    · cases h
    · rename_i hhere
      exact hhere

/-- What is a directory in the one tree is one in the other. -/
def KeepsDirectories (s t : Tree) : Prop := ∀ l, s.entry? l = some .directory → t.entry? l = some .directory

theorem KeepsDirectories.trans {u : Tree} (h : s.KeepsDirectories t) (h' : t.KeepsDirectories u) :
    s.KeepsDirectories u := fun l hl => h' l (h l hl)

theorem keepsDirectories_put (hl : l ≠ Location.root) (hfree : t.entry? l ≠ some .directory) (e : Entry) :
    t.KeepsDirectories (t.put l e) := by
  intro k hk
  rw [entry?_put t hl, if_neg]
  · exact hk
  · rintro rfl
    exact hfree hk

/-- A walk to a directory stays possible while directories stay. -/
theorem KeepsDirectories.walk (hkeep : s.KeepsDirectories t) (h : s.walk here names = .ok l)
    (hl : s.entry? l = some .directory) : t.walk here names = .ok l := by
  induction names generalizing here with
  | nil => exact h
  | cons name names ih =>
    have hhere := directory_of_walk h hl
    rw [Tree.walk, hhere] at h
    rw [Tree.walk, hkeep here hhere]
    dsimp only at h ⊢
    split
    · rename_i hidle
      rw [if_pos hidle] at h
      exact ih h
    · rename_i hidle
      rw [if_neg hidle] at h
      split
      · rename_i hup
        rw [if_pos hup] at h
        exact ih h
      · rename_i hup
        rw [if_neg hup] at h
        split
        · rename_i hlong
          rw [if_pos hlong] at h
          cases h
        · rename_i hlong
          rw [if_neg hlong] at h
          split at h
          · rw [hkeep _ (directory_of_walk h hl)]
            exact ih h
          · cases h

theorem of_locate (h : t.locate path = .ok l) :
    path ≠ "" ∧ isLongPath path = false ∧ t.walk (t.origin path) (Path.pieces path) = .ok l := by
  unfold locate at h
  split at h
  · cases h
  · rename_i hne
    split at h
    · cases h
    · rename_i hlong
      exact ⟨hne, by simpa using hlong, h⟩

theorem locate_of_walk (hne : path ≠ "") (hlong : isLongPath path = false)
    (h : t.walk (t.origin path) (Path.pieces path) = .ok l) : t.locate path = .ok l := by
  rw [locate, if_neg hne, hlong, if_neg Bool.false_ne_true, h]

theorem placeOf_of_locate (h : t.locate path = .ok l) : l = t.placeOf path := walk_ok (of_locate h).2.2

theorem origin_congr (h : t.start = s.start) (path : String) : t.origin path = s.origin path := by
  rw [origin, origin, h]

theorem placeOf_congr (h : t.start = s.start) (path : String) : t.placeOf path = s.placeOf path := by
  rw [placeOf, placeOf, origin_congr h]

/-- The place of a name in a directory is the name's in the place of the directory. -/
theorem placeOf_join (t : Tree) (hdirectory : directory ≠ "") (hname : IsFileName name) :
    t.placeOf (Path.join directory name) = (t.placeOf directory).child name := by
  have horigin : t.origin (Path.join directory name) = t.origin directory := by
    rw [origin, origin, Path.head?_join hdirectory]
  rw [placeOf, placeOf, horigin]
  obtain ⟨names, hnames, hsame | hsame⟩ := Path.pieces_join directory hname.unbroken
  · rw [hnames, hsame, List.foldl_append]
    exact hname.follow _
  · rw [hnames, hsame, List.foldl_append, List.foldl_append]
    exact hname.follow _

theorem KeepsDirectories.locate (hkeep : s.KeepsDirectories t) (hstart : t.start = s.start)
    (h : s.locate path = .ok l) (hl : s.entry? l = some .directory) : t.locate path = .ok l := by
  obtain ⟨hne, hlong, hwalk⟩ := of_locate h
  exact locate_of_walk hne hlong (origin_congr hstart path ▸ hkeep.walk hwalk hl)

/-! ## Making directories -/

/-- The tree has more directories, and is the same otherwise. -/
structure Grows (s t : Tree) : Prop where
  start : t.start = s.start
  entries : ∀ l, t.entry? l = s.entry? l ∨ (s.entry? l = none ∧ t.entry? l = some .directory)

theorem Grows.refl (t : Tree) : t.Grows t := ⟨rfl, fun _ => .inl rfl⟩

theorem Grows.trans {u : Tree} (h : s.Grows t) (h' : t.Grows u) : s.Grows u where
  start := h'.start.trans h.start
  entries l := by
    rcases h'.entries l with hl | ⟨hl, hu⟩
    · rw [hl]
      exact h.entries l
    · rcases h.entries l with hs | ⟨-, hs⟩
      · exact .inr ⟨hs ▸ hl, hu⟩
      · rw [hs] at hl
        cases hl

theorem Grows.file (h : s.Grows t) : t.entry? l = some (.file content) ↔ s.entry? l = some (.file content) := by
  rcases h.entries l with hl | ⟨hs, ht⟩
  · rw [hl]
  · rw [hs, ht]
    simp

theorem Grows.keeps (h : s.Grows t) : s.KeepsDirectories t := by
  intro l hl
  rcases h.entries l with ht | ⟨-, ht⟩
  · rw [ht, hl]
  · exact ht

theorem grows_put (h : t.entry? l = none) : t.Grows (t.put l .directory) where
  start := rfl
  entries k := by
    have hl : l ≠ Location.root := by
      rintro rfl
      rw [entry?_root] at h
      cases h
    rw [entry?_put t hl]
    split
    · rename_i hk
      exact .inr ⟨hk ▸ h, rfl⟩
    · exact .inl rfl

theorem build_ok (h : t.build here names = (.ok (), t')) :
    t.Grows t' ∧ t'.entry? (names.foldl Location.follow here) = some .directory := by
  induction names generalizing t here with
  | nil =>
    rw [build] at h
    split at h
    · rename_i hhere
      cases h
      exact ⟨.refl _, hhere⟩
    · cases h
  | cons name names ih =>
    rw [build] at h
    rw [List.foldl_cons, Location.follow]
    split at h
    · cases h
    · cases h
    · split at h
      · rename_i hidle
        rw [if_pos hidle]
        exact ih h
      · rename_i hidle
        rw [if_neg hidle]
        split at h
        · rename_i hup
          rw [if_pos hup]
          exact ih h
        · rename_i hup
          rw [if_neg hup]
          split at h
          · cases h
          · split at h
            · exact ih h
            · rename_i hnew
              obtain ⟨hgrows, hmade⟩ := ih h
              exact ⟨(grows_put (by simpa using hnew)).trans hgrows, hmade⟩

theorem makeDirectories_ok (h : t.makeDirectories path = (.ok (), t')) :
    t.Grows t' ∧ t'.entry? (t.placeOf path) = some .directory := by
  unfold makeDirectories at h
  split at h
  · cases h
  · exact build_ok h

/-! ## Removing directories -/

theorem removeDirectory_ok (h : t.removeDirectory path = (.ok (), t')) :
    t.locate path = .ok (t.placeOf path) ∧ t' = t.prune (t.placeOf path) := by
  unfold removeDirectory at h
  split at h
  · cases h
  · rename_i l hl
    obtain rfl := placeOf_of_locate hl
    split at h
    · cases h
      exact ⟨hl, rfl⟩
    · cases h
    · cases h

theorem file_prune : Tree.entry? (t.prune here) l = some (.file content) ↔
    t.entry? l = some (.file content) ∧ ¬ l.isWithin here = true := by
  rw [entry?_prune]
  by_cases hl : l = Location.root
  · simp [hl, entry?_root]
  · by_cases hin : l.isWithin here = true <;> simp [hl, hin]

/-! ## Files -/

theorem write_ok (h : t.write directory name content = (.ok (), t')) :
    isLongPath (Path.join directory name) = false ∧ isLongName name = false ∧
    ∃ l, t.locate directory = .ok l ∧ t.entry? l = some .directory ∧
      t.entry? (l.child name) ≠ some .directory ∧ t' = t.put (l.child name) (.file content) := by
  unfold write at h
  split at h
  · cases h
  · rename_i hlong
    refine ⟨by simpa using hlong, ?_⟩
    split at h
    · rename_i l hlocate
      unfold writeAt at h
      split at h
      · cases h
      · cases h
      · rename_i hl
        split at h
        · cases h
        · rename_i hname
          refine ⟨by simpa using hname, l, hlocate, hl, ?_⟩
          split at h
          · cases h
          · rename_i hfree
            cases h
            exact ⟨fun hdir => hfree hdir, rfl⟩
    · cases h

theorem rename_ok {old new : String} (h : t.rename directory old new = (.ok (), t')) :
    ∃ l content, t.locate directory = .ok l ∧ t.entry? (l.child old) = some (.file content) ∧
      t.entry? (l.child new) ≠ some .directory ∧ t'.start = t.start ∧
      ∀ k, t'.entry? k = if k = l.child new then some (.file content)
        else if k = l.child old then none else t.entry? k := by
  unfold rename at h
  split at h
  · cases h
  · rename_i l hlocate
    split at h
    · cases h
    · rename_i content hold hfree
      cases h
      refine ⟨l, content, hlocate, hold, fun hdir => hfree hdir, rfl, fun k => ?_⟩
      rw [entry?_put _ Location.child_ne_root]
      congr 1
      unfold entry?
      by_cases hk : k = Location.root
      · subst hk
        rw [if_pos rfl, if_pos rfl, if_neg fun h => Location.child_ne_root h.symm]
      · rw [if_neg hk, if_neg hk]
        exact SortedMap.get?_erase _ _ _
    · cases h

theorem unfinished_ne (name : String) : unfinished name ≠ name := by
  intro h
  have hlength := congrArg (fun s : String => s.toList.length) h
  simp [unfinished] at hlength

/-- A path is no longer than that of the file while it is written. -/
theorem isLongPath_of_unfinished (h : isLongPath (Path.join directory (unfinished name)) = false) :
    isLongPath (Path.join directory name) = false := by
  have hlonger : Path.join directory (unfinished name) = Path.join directory name ++ ".tmp" := by
    unfold Path.join unfinished
    split
    · rw [String.append_assoc]
    · rw [String.append_assoc, String.append_assoc, String.append_assoc]
  rw [hlonger] at h
  simp only [isLongPath, String.utf8ByteSize_append, decide_eq_false_iff_not] at h ⊢
  omega

/-- What replacing a file comes to: the file is there, and what it was written to first is not. -/
theorem replace_ok (h : t.replace directory name content = (.ok (), t')) :
    ∃ l, t.locate directory = .ok l ∧ t.entry? l = some .directory ∧
      isLongPath (Path.join directory (unfinished name)) = false ∧ isLongName (unfinished name) = false ∧
      t.entry? (l.child name) ≠ some .directory ∧
      t.entry? (l.child (unfinished name)) ≠ some .directory ∧ t'.start = t.start ∧
      ∀ k, t'.entry? k = if k = l.child name then some (.file content)
        else if k = l.child (unfinished name) then none else t.entry? k := by
  unfold replace at h
  split at h
  · cases h
  · rename_i written hwrite
    obtain ⟨hpath, hlong, l, hlocate, hl, hfree, rfl⟩ := write_ok hwrite
    obtain ⟨l', content', hlocate', hold, hnew, hstart, hentries⟩ := rename_ok h
    have hother : l.child name ≠ l.child (unfinished name) := fun h => unfinished_ne name (Location.child_inj h).symm
    obtain rfl : l' = l := by
      rw [placeOf_of_locate hlocate', placeOf_of_locate hlocate]
      exact placeOf_congr rfl directory
    rw [entry?_put t Location.child_ne_root, if_pos rfl] at hold
    cases hold
    rw [entry?_put t Location.child_ne_root, if_neg hother] at hnew
    refine ⟨l', hlocate, hl, hpath, hlong, hnew, hfree, hstart, fun k => ?_⟩
    rw [hentries, entry?_put t Location.child_ne_root]
    split
    · rfl
    · split
      · rfl
      · rfl

/-- A file in a directory that a path leads to is read at the path with its name. -/
theorem readBytes_join (hname : IsFileName name) (hlong : isLongName name = false)
    (hpath : isLongPath (Path.join directory name) = false) (hdirectory : t.locate directory = .ok l)
    (hl : t.entry? l = some .directory) (hfile : t.entry? (l.child name) = some (.file content)) :
    t.readBytes (Path.join directory name) = .ok content := by
  obtain ⟨hne, -, hwalk⟩ := of_locate hdirectory
  have horigin : t.origin (Path.join directory name) = t.origin directory := by
    rw [origin, origin, Path.head?_join hne]
  have hstep : t.walk l [name] = .ok (l.child name) := by
    rw [walk, hl]
    dsimp only
    rw [hname.lasting, if_neg Bool.false_ne_true, if_neg hname.below, hlong, if_neg Bool.false_ne_true,
      hfile]
    rfl
  have hend : t.walk (t.origin directory) (Path.pieces (Path.join directory name)) = .ok (l.child name) := by
    obtain ⟨names, hnames, hsame | hsame⟩ := Path.pieces_join directory hname.unbroken
    · rw [hnames, ← hsame, walk_append, hwalk]
      exact hstep
    · rw [hsame, walk_append] at hwalk
      obtain ⟨k, hk, hlast⟩ : ∃ k, t.walk (t.origin directory) names = .ok k ∧ t.walk k [""] = .ok l := by
        cases hnames' : t.walk (t.origin directory) names with
        | error fault =>
          rw [hnames'] at hwalk
          cases hwalk
        | ok k =>
          rw [hnames'] at hwalk
          exact ⟨k, rfl, hwalk⟩
      obtain rfl : l = k := walk_ok hlast
      rw [hnames, walk_append, hk]
      exact hstep
  have hfound := locate_of_walk (Path.join_ne_empty directory hname.ne_empty) hpath (horigin ▸ hend)
  rw [readBytes, hfound]
  show Except.bind (.ok (l.child name)) _ = _
  rw [Except.bind, hfile]

/-! ## A way through a directory that is not there -/

theorem origin_detour (h : IsFileName name) (t : Tree) (rest : String) :
    t.origin (Path.detour name rest) = t.start := by
  refine if_neg fun hhead => ?_
  rw [Path.toList_detour h.unbroken, List.head?_append] at hhead
  cases hname : name.toList with
  | nil => exact h.ne_empty (by simpa using hname)
  | cons c rest =>
    rw [hname] at hhead
    cases hhead
    exact h.unbroken (hname ▸ List.mem_cons_self)

/-- A path that leads through a directory that is not there, and back, is not found, whatever is at the place
that it means. -/
theorem locate_detour (h : IsFileName name)
    (hfree : t.entry? (t.start.child name) = none) (rest : String) :
    (t.locate (Path.detour name rest)).isOk = false ∧
      t.placeOf (Path.detour name rest) = t.placeOf (Path.join "." rest) := by
  constructor
  · -- The walk ends at the first name, and the dots behind it are never looked at.
    have hwalk : ∀ l, t.walk (t.origin (Path.detour name rest)) (Path.pieces (Path.detour name rest)) ≠ .ok l := by
      intro l hl
      rw [t.origin_detour h, Path.pieces_detour h.unbroken, walk] at hl
      simp only [h.lasting, h.below, hfree, Option.isSome_none, Bool.false_eq_true, if_false] at hl
      split at hl
      · cases hl
      · cases hl
      · split at hl <;> cases hl
    cases hlocate : t.locate (Path.detour name rest) with
    | error fault => rfl
    | ok l => exact absurd (of_locate hlocate).2.2 (hwalk l)
  · have hhere : t.origin (Path.join "." rest) = t.start := by
      rw [origin, Path.head?_join (by decide)]
      rfl
    rw [placeOf, placeOf, t.origin_detour h, hhere, Path.pieces_detour h.unbroken, Path.pieces_here,
      List.foldl_cons, List.foldl_cons, List.foldl_cons, h.follow, Location.follow_back]
    rfl

end Tree
end SeedData
