/-
What filling a table records. A journal kept beside the draws changes nothing about what is drawn,
and what it comes to depends on the feeds alone (`Tells`). The first row reports each column that
falls short of its source; the rows after it meet the same and report nothing more
(`Journal.recordAll_recordAll`). So the issues of a table are those of its plan, whatever the number
of rows, and whatever is drawn for them (`tells_fillTable`, `TablePlan.report_noted`).
-/
import SeedData.Proofs.PlanFacts
import SeedData.Run.Generate

namespace SeedData

/-! ## Journals -/

namespace Journal

variable {j : Journal} {entries : List (Nat × Issue)} {mark : String × Nat}

/-- The journal with these issues, of columns at these places, each unless one of its code has been
reported of the column. -/
def recordAll (j : Journal) (entries : List (Nat × Issue)) : Journal :=
  entries.foldl (fun j e => j.recordOnce e.1 e.2) j

theorem recordAll_append (j : Journal) (entries later : List (Nat × Issue)) :
    j.recordAll (entries ++ later) = (j.recordAll entries).recordAll later := List.foldl_append

theorem mem_reported_recordOnce (j : Journal) (place : Nat) (issue : Issue) :
    mark ∈ (j.recordOnce place issue).reported ↔ mark ∈ j.reported ∨ mark = (issue.code, place) := by
  unfold recordOnce
  split
  · rename_i h
    exact ⟨.inl, fun hm => hm.elim id fun he => he ▸ h⟩
  · rw [List.mem_cons, or_comm]

theorem mem_reported_recordAll : mark ∈ (j.recordAll entries).reported ↔
    mark ∈ j.reported ∨ ∃ e ∈ entries, mark = (e.2.code, e.1) := by
  induction entries generalizing j with
  | nil => simp [recordAll]
  | cons e entries ih =>
    show mark ∈ ((j.recordOnce e.1 e.2).recordAll entries).reported ↔ _
    rw [ih, mem_reported_recordOnce, List.exists_mem_cons_iff, or_assoc]

/-- What has been reported is not reported again. -/
theorem recordAll_of_reported (h : ∀ e ∈ entries, (e.2.code, e.1) ∈ j.reported) :
    j.recordAll entries = j := by
  induction entries with
  | nil => rfl
  | cons e entries ih =>
    have he : j.recordOnce e.1 e.2 = j := if_pos (h e List.mem_cons_self)
    show (j.recordOnce e.1 e.2).recordAll entries = j
    rw [he]
    exact ih fun e' he' => h e' (List.mem_cons_of_mem e he')

/-- Meeting the same issues once more adds nothing. -/
theorem recordAll_recordAll (j : Journal) (entries : List (Nat × Issue)) :
    (j.recordAll entries).recordAll entries = j.recordAll entries :=
  recordAll_of_reported fun e he => mem_reported_recordAll.2 (.inr ⟨e, he, rfl⟩)

/-- Issues of columns of which nothing has been reported are all recorded, in order. -/
theorem recordAll_fresh (hn : (entries.map Prod.fst).Nodup)
    (hfresh : ∀ e ∈ entries, ∀ code, (code, e.1) ∉ j.reported) :
    (j.recordAll entries).report = (entries.map Prod.snd).foldl Report.record j.report ∧
    (j.recordAll entries).notices = j.notices ++ (entries.map Prod.snd).map Issue.notice := by
  induction entries generalizing j with
  | nil => exact ⟨rfl, (List.append_nil _).symm⟩
  | cons e entries ih =>
    have he : j.recordOnce e.1 e.2 =
        { j.record e.2 with reported := (e.2.code, e.1) :: j.reported } :=
      if_neg (hfresh e List.mem_cons_self _)
    rw [List.map_cons, List.nodup_cons] at hn
    obtain ⟨hreport, hnotices⟩ := ih (j := j.recordOnce e.1 e.2) hn.2 fun e' he' code hmem => by
      rcases (j.mem_reported_recordOnce e.1 e.2).1 hmem with hmem | hmem
      · exact hfresh e' (List.mem_cons_of_mem e he') code hmem
      · have hplace : e'.1 = e.1 := congrArg Prod.snd hmem
        exact hn.1 (hplace ▸ List.mem_map_of_mem he')
    refine ⟨hreport.trans ?_, hnotices.trans ?_⟩
    · rw [he]
      rfl
    · rw [he, List.map_cons, List.map_cons, List.append_cons]
      rfl

theorem report_foldl_record (j : Journal) (issues : List Issue) :
    (issues.foldl Journal.record j).report = issues.foldl Report.record j.report := by
  induction issues generalizing j with
  | nil => rfl
  | cons i issues ih => exact ih (j.record i)

theorem notices_foldl_record (j : Journal) (issues : List Issue) :
    (issues.foldl Journal.record j).notices = j.notices ++ issues.map Issue.notice := by
  induction issues generalizing j with
  | nil => exact (List.append_nil _).symm
  | cons i issues ih =>
    rw [List.foldl_cons, ih, List.map_cons, List.append_cons]
    rfl

theorem reported_foldl_record (j : Journal) (issues : List Issue) :
    (issues.foldl Journal.record j).reported = j.reported := by
  induction issues generalizing j with
  | nil => rfl
  | cons i issues ih => exact ih (j.record i)

end Journal

/-! ## What the columns of a row report -/

section

variable {issue? : Feed → Option Issue} {feeds : List Feed}

/-- The issues that the columns from a place on have to report, each with its place. -/
def reportsFrom (issue? : Feed → Option Issue) (place : Nat) (feeds : List Feed) : List (Nat × Issue) :=
  (feeds.zipIdx place).filterMap fun f => (issue? f.1).map (f.2, ·)

/-- The issues that the two passes over a row have to report. -/
def rowReports (feeds : List Feed) : List (Nat × Issue) :=
  reportsFrom Feed.orphan? 0 feeds ++ reportsFrom Feed.fallback? 0 feeds

theorem recordAll_reportsFrom_cons (j : Journal) (place : Nat) (feed : Feed) :
    j.recordAll (reportsFrom issue? place (feed :: feeds)) =
      ((issue? feed).elim j (j.recordOnce place)).recordAll (reportsFrom issue? (place + 1) feeds) := by
  unfold reportsFrom
  rw [List.zipIdx_cons, List.filterMap_cons]
  cases issue? feed <;> rfl

theorem map_snd_reportsFrom (place : Nat) :
    (reportsFrom issue? place feeds).map Prod.snd = feeds.filterMap issue? := by
  have hsnd : ∀ f : Feed × Nat, ((issue? f.1).map (f.2, ·)).map Prod.snd = issue? f.1 := by
    simp [Function.comp_def]
  calc (reportsFrom issue? place feeds).map Prod.snd
      = (feeds.zipIdx place).filterMap (issue? ∘ Prod.fst) := by
        rw [reportsFrom, List.map_filterMap]
        exact List.filterMap_congr fun f _ => hsnd f
    _ = feeds.filterMap issue? := by rw [← List.filterMap_map, List.zipIdx_map_fst]

theorem mem_reportsFrom {e : Nat × Issue} (he : e ∈ reportsFrom issue? 0 feeds) :
    feeds[e.1]?.bind issue? = some e.2 := by
  obtain ⟨⟨feed, place⟩, hmem, he⟩ := List.mem_filterMap.1 he
  obtain ⟨issue, hissue, rfl⟩ := Option.map_eq_some_iff.1 he
  rw [List.mk_mem_zipIdx_iff_getElem?] at hmem
  simpa [hmem] using hissue

theorem nodup_places (place : Nat) : ((reportsFrom issue? place feeds).map Prod.fst).Nodup := by
  have hplaces : ((feeds.zipIdx place).map Prod.snd).Nodup := by
    rw [List.zipIdx_map_snd]
    exact List.nodup_range'
  refine List.pairwise_map.2 (List.Pairwise.filterMap _ (fun f g hne e he e' he' => ?_)
    (List.pairwise_map.1 hplaces))
  obtain ⟨issue, -, rfl⟩ := Option.map_eq_some_iff.1 he
  obtain ⟨issue', -, rfl⟩ := Option.map_eq_some_iff.1 he'
  exact hne

/-- No column has something to report in both passes. -/
theorem nodup_places_rowReports (feeds : List Feed) : ((rowReports feeds).map Prod.fst).Nodup := by
  rw [rowReports, List.map_append, List.nodup_append]
  refine ⟨nodup_places 0, nodup_places 0, List.forall_mem_map.2 fun e he =>
    List.forall_mem_map.2 fun e' he' hplace => ?_⟩
  have horphan := mem_reportsFrom he
  have hfallback := mem_reportsFrom he'
  rw [hplace] at horphan
  cases hfeed : feeds[e'.1]? with
  | none => simp [hfeed] at horphan
  | some feed =>
    rw [hfeed, Option.bind_some] at horphan hfallback
    cases feed <;> simp [Feed.orphan?, Feed.fallback?] at horphan hfallback

end

/-! ## Keeping a journal beside the draws -/

/-- Where nothing is done about an issue. -/
class Silent (m : Type → Type) [Monad m] [Filling m] : Prop where
  record_eq (issue : Issue) : (record issue : m Unit) = pure ()
  recordOnce_eq (place : Nat) (issue : Issue) : (recordOnce place issue : m Unit) = pure ()

instance : Silent Draw := ⟨fun _ => rfl, fun _ _ => rfl⟩

variable {m : Type → Type} [Monad m] {α β : Type}

theorem forM_record_eq [LawfulMonad m] [Filling m] [Silent m] (issues : List Issue) :
    (issues.forM record : m Unit) = pure () := by
  induction issues with
  | nil => rfl
  | cons i issues ih =>
    show (do record i; issues.forM record : m Unit) = pure ()
    rw [Silent.record_eq, pure_bind, ih]

/-- With a journal the one does what the other does without, and changes the journal like this. -/
def Tells (x : StateT Journal m α) (y : m α) (f : Journal → Journal) : Prop :=
  ∀ j, x.run j = (fun a => (a, f j)) <$> y

variable [LawfulMonad m] {x : StateT Journal m α} {y : m α} {f g : Journal → Journal}

theorem Tells.pure (a : α) : Tells (Pure.pure a : StateT Journal m α) (Pure.pure a) id := fun j => by
  rw [StateT.run_pure, map_pure, id]

theorem Tells.bind {k : α → StateT Journal m β} {l : α → m β} (hx : Tells x y f)
    (hk : ∀ a, Tells (k a) (l a) g) : Tells (x >>= k) (y >>= l) (g ∘ f) := fun j => by
  rw [StateT.run_bind, hx j, bind_map_left, map_bind]
  exact bind_congr fun a => hk a (f j)

/-- What comes first leaves the journal as it is. -/
theorem Tells.quiet_bind {k : α → StateT Journal m β} {l : α → m β} (hx : Tells x y id)
    (hk : ∀ a, Tells (k a) (l a) g) : Tells (x >>= k) (y >>= l) g := hx.bind hk

variable [Filling m]

theorem tells_draw (d : Draw α) : Tells (draw d : StateT Journal m α) (draw d) id := fun j => by
  show (StateT.lift (draw d)).run j = _
  rw [StateT.run_lift, map_eq_pure_bind]
  rfl

theorem tells_rely (holds : Bool) : Tells (rely holds : StateT Journal m Unit) (rely holds) id := fun j => by
  show (StateT.lift (rely holds)).run j = _
  rw [StateT.run_lift, map_eq_pure_bind]
  rfl

theorem tells_record [Silent m] (issue : Issue) :
    Tells (record issue : StateT Journal m Unit) (record issue) (·.record issue) := fun j => by
  rw [Silent.record_eq (m := m), map_pure]
  rfl

theorem tells_recordOnce [Silent m] (place : Nat) (issue : Issue) :
    Tells (recordOnce place issue : StateT Journal m Unit) (recordOnce place issue)
      (·.recordOnce place issue) := fun j => by
  rw [Silent.recordOnce_eq (m := m), map_pure]
  rfl

/-! ## Random values -/

theorem tells_below (n : Nat) : Tells (Draw.below n : StateT Journal m Nat) (Draw.below n) id :=
  (tells_rely _).quiet_bind fun _ => tells_draw _

theorem tells_belowLong (n : Nat) : Tells (Draw.belowLong n : StateT Journal m Nat) (Draw.belowLong n) id :=
  (tells_rely _).quiet_bind fun _ => tells_draw _

theorem tells_chance (p : Float) : Tells (Draw.chance p : StateT Journal m Bool) (Draw.chance p) id := by
  refine (tells_rely _).quiet_bind fun _ => ?_
  split
  · exact .pure _
  · exact (tells_draw _).quiet_bind fun _ => .pure _

theorem tells_between (low high : Float) :
    Tells (Draw.between low high : StateT Journal m Float) (Draw.between low high) id :=
  (tells_rely _).quiet_bind fun _ => (tells_draw _).quiet_bind fun _ => .pure _

theorem tells_timeOfDay : Tells (TimeOfDay.random : StateT Journal m TimeOfDay) TimeOfDay.random id :=
  (tells_below _).quiet_bind fun _ => .pure _

theorem tells_date (base : Date) : Tells (base.random : StateT Journal m Date) base.random id :=
  (tells_belowLong _).quiet_bind fun _ => .pure _

theorem tells_randomNumber : Tells (randomNumber : StateT Journal m Nat) randomNumber id :=
  (tells_belowLong _).quiet_bind fun _ => .pure _

theorem tells_random (type : ColumnType) (given : Option String) (base : Date) :
    Tells (type.random given base : StateT Journal m Value) (type.random given base) id := by
  unfold ColumnType.random
  cases type.family with
  | integer => exact tells_randomNumber.quiet_bind fun _ => .pure _
  | decimal => exact (tells_between _ _).quiet_bind fun _ => .pure _
  | boolean => exact (tells_chance _).quiet_bind fun _ => .pure _
  | date => exact (tells_date _).quiet_bind fun _ => .pure _
  | time => exact tells_timeOfDay.quiet_bind fun _ => .pure _
  | timestamp =>
    exact (tells_date _).quiet_bind fun _ => tells_timeOfDay.quiet_bind fun _ => .pure _
  | uuid => exact (tells_draw _).quiet_bind fun _ => .pure _
  | json => exact (tells_draw _).quiet_bind fun _ => tells_randomNumber.quiet_bind fun _ => .pure _
  | enumerated labels =>
    exact (tells_below _).quiet_bind fun _ => (tells_rely _).quiet_bind fun _ => .pure _
  | text =>
    cases given with
    | none => exact (tells_draw _).quiet_bind fun _ => .pure _
    | some s => exact (Tells.pure s).quiet_bind fun _ => .pure _

/-! ## Rows -/

theorem tells_earlierValue (nullRate : Float) (rows : Array (List Value)) (column : Nat) :
    Tells (earlierValue nullRate rows column : StateT Journal m Value) (earlierValue nullRate rows column)
      id := by
  unfold earlierValue
  split
  · exact .pure _
  · refine (tells_chance _).quiet_bind fun taken => ?_
    split
    · exact .pure _
    · exact (tells_below _).quiet_bind fun _ => (tells_rely _).quiet_bind fun _ => .pure _

theorem tells_hintedText (hint : Option Hint) :
    Tells (hintedText hint : StateT Journal m (Option String)) (hintedText hint) id := by
  cases hint with
  | none => exact .pure _
  | some hint => exact (tells_draw _).quiet_bind fun _ => .pure _

variable [Silent m]

theorem tells_link (nullRate : Float) (rows : Array (List Value)) (place : Nat) (choices : Choices)
    (feed : Feed) : Tells (feed.link nullRate rows place choices : StateT Journal m (Value × Choices))
      (feed.link nullRate rows place choices) fun j => feed.orphan?.elim j (j.recordOnce place) := by
  cases feed with
  | empty issue => exact (tells_recordOnce place issue).bind fun _ => .pure _
  | sample table pool =>
    exact (tells_below _).quiet_bind fun _ => (tells_rely _).quiet_bind fun _ => .pure _
  | earlier column => exact (tells_earlierValue _ _ _).quiet_bind fun _ => .pure _
  | shared | key | random => exact .pure _

theorem tells_linkRow (nullRate : Float) (rows : Array (List Value)) (place : Nat) (choices : Choices)
    (feeds : List Feed) :
    Tells (linkRow nullRate rows place feeds choices : StateT Journal m (List Value × Choices))
      (linkRow nullRate rows place feeds choices) (·.recordAll (reportsFrom Feed.orphan? place feeds)) := by
  induction feeds generalizing place choices with
  | nil => exact .pure _
  | cons feed feeds ih =>
    simp only [recordAll_reportsFrom_cons]
    exact (tells_link _ _ _ _ feed).bind fun _ => (ih _ _).bind fun _ => .pure _

theorem tells_fill (base : Date) (row : UInt64) (place : Nat) (linked : Value) (choices : Choices)
    (feed : Feed) : Tells (feed.fill base row place linked choices : StateT Journal m (Value × Choices))
      (feed.fill base row place linked choices) fun j => feed.fallback?.elim j (j.recordOnce place) := by
  cases feed with
  | empty | sample | earlier => exact .pure _
  | shared table pool =>
    unfold Feed.fill
    dsimp only
    split
    · exact .pure _
    · exact (tells_below _).quiet_bind fun _ => .pure _
  | key column type => exact (tells_rely _).quiet_bind fun _ => .pure _
  | random type hint issue =>
    have hrest : ∀ given, Tells (m := m) (do return (← type.random given base, choices))
        (do return (← type.random given base, choices)) id := fun given =>
      (tells_random _ _ _).quiet_bind fun _ => .pure _
    cases issue with
    | none => exact (Tells.pure _).quiet_bind fun _ => (tells_hintedText _).quiet_bind hrest
    | some issue => exact (tells_recordOnce place issue).bind fun _ => (tells_hintedText _).quiet_bind hrest

theorem tells_fillRow (base : Date) (row : UInt64) (place : Nat) (linked : List Value) (choices : Choices)
    (feeds : List Feed) :
    Tells (fillRow base row place feeds linked choices : StateT Journal m (List Value))
      (fillRow base row place feeds linked choices)
      (·.recordAll (reportsFrom Feed.fallback? place feeds)) := by
  induction feeds generalizing place linked choices with
  | nil => exact .pure _
  | cons feed feeds ih =>
    simp only [recordAll_reportsFrom_cons]
    exact (tells_fill _ _ _ _ _ feed).bind fun _ => (ih _ _ _).bind fun _ => .pure _

theorem tells_nextRow (options : Options) (feeds : List Feed) (rows : Array (List Value)) :
    Tells (nextRow options feeds rows : StateT Journal m (List Value)) (nextRow options feeds rows)
      (·.recordAll (rowReports feeds)) := by
  simp only [rowReports, Journal.recordAll_append]
  exact (tells_linkRow _ _ _ _ feeds).bind fun _ => tells_fillRow _ _ _ _ _ feeds

/-- However many rows there are, the first reports all there is to report. -/
theorem tells_fillRows (options : Options) (feeds : List Feed) (count : Nat) (rows : Array (List Value)) :
    Tells (fillRows options feeds count rows : StateT Journal m (Array (List Value)))
      (fillRows options feeds count rows)
      fun j => if count = 0 then j else j.recordAll (rowReports feeds) := by
  induction count generalizing rows with
  | zero => exact .pure _
  | succ count ih =>
    intro j
    have hstep := (tells_nextRow (m := m) options feeds rows).bind (fun row => ih (rows.push row)) j
    simp only [Function.comp_apply, Journal.recordAll_recordAll, ite_self] at hstep
    simp only [Nat.succ_ne_zero, if_false]
    exact hstep

/-! ## Tables -/

theorem tells_forM_record (issues : List Issue) :
    Tells (issues.forM record : StateT Journal m Unit) (issues.forM record)
      (issues.foldl Journal.record ·) := by
  induction issues with
  | nil => exact .pure _
  | cons i issues ih => exact (tells_record i).bind fun _ => ih

/-- What a journal comes to when a table of so many rows is filled. -/
def TablePlan.noted (p : TablePlan) (pools : Pools) (rows : UInt64) (j : Journal) : Journal :=
  let begun := (p.issuesOf (Source.exhaustion? rows)).foldl Journal.record j
  if rows = 0 then begun else begun.recordAll (rowReports (p.feeds pools))

/-- **Whatever is drawn, filling a table records the same.** -/
theorem tells_fillTable (job : Job) (pools : Pools) (p : TablePlan) :
    Tells (job.fillTable pools p : StateT Journal m DataTable) (job.fillTable pools p)
      (p.noted pools job.options.rows) := by
  have hzero : job.options.rows.toNat = 0 ↔ job.options.rows = 0 := UInt64.toNat_inj (b := 0)
  unfold TablePlan.noted
  simp only [← hzero]
  exact (tells_forM_record _).bind fun _ => (tells_fillRows _ _ _ _).bind fun _ => .pure _

namespace TablePlan

variable (p : TablePlan) (pools : Pools) (rows : UInt64) (report : Report)

/-- The issues of the plan are recorded, each once and in order, and a notice is given of each. -/
theorem noted_ofReport :
    (p.noted pools rows (.ofReport report)).report = (p.issues pools rows).foldl Report.record report ∧
    (p.noted pools rows (.ofReport report)).notices = (p.issues pools rows).map Issue.notice := by
  unfold noted issues
  split
  · rw [List.append_nil, Journal.report_foldl_record, Journal.notices_foldl_record]
    exact ⟨rfl, rfl⟩
  · obtain ⟨hreport, hnotices⟩ := Journal.recordAll_fresh
      (j := (p.issuesOf (Source.exhaustion? rows)).foldl Journal.record (.ofReport report))
      (nodup_places_rowReports (p.feeds pools)) (by simp [Journal.reported_foldl_record, Journal.ofReport])
    have hmet : (rowReports (p.feeds pools)).map Prod.snd =
        p.issuesOf (Source.orphan? pools) ++ p.issuesOf (Source.fallback? pools p.name) := by
      rw [rowReports, List.map_append, map_snd_reportsFrom, map_snd_reportsFrom, filterMap_orphan?_feeds,
        filterMap_fallback?_feeds]
    rw [hreport, hnotices, hmet, Journal.report_foldl_record, Journal.notices_foldl_record]
    exact ⟨List.foldl_append.symm, List.map_append.symm⟩

end TablePlan
end SeedData
