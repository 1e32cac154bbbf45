/-
Where a run that may stop (`Run/Guarded`) does stop: at a key that is too wide to be written, and
nowhere else (`Guarded.generate_eq`). Everything that a step relies on was seen to before it:
pools and labels are there before they are drawn from, and an earlier row is as long as the table
is wide.
-/
import SeedData.Proofs.TypedCells
import SeedData.Run.Guarded

namespace SeedData

/-! ## Attempts -/

namespace Attempt

instance : Silent Attempt := ⟨fun _ => rfl, fun _ _ => rfl⟩

variable {α β : Type} {g : Attempt α} {d : Draw α} {f : α → Attempt β} {e : α → Draw β}
  {P : α → Prop} {n : Nat}

/-- The attempt does not stop, and comes to what the draw comes to. -/
def Makes (g : Attempt α) (d : Draw α) : Prop := ∀ s, g.run s = some (d.run s)

def Stops (g : Attempt α) : Prop := ∀ s, g.run s = none

theorem makes_pure (a : α) : Makes (pure a) (pure a) := fun _ => rfl

theorem makes_draw (d : Draw α) : (draw d : Attempt α).Makes (draw d) := fun _ => rfl

theorem makes_rely {holds : Bool} (h : holds = true) : (rely holds : Attempt Unit).Makes (rely holds) := by
  subst h
  exact makes_pure ()

theorem stops_rely {holds : Bool} (h : holds = false) : (rely holds : Attempt Unit).Stops := by
  subst h
  exact fun _ => rfl

theorem Makes.bind (hg : g.Makes d) (hd : d.Always P) (hf : ∀ a, P a → (f a).Makes (e a)) :
    (g >>= f).Makes (d >>= e) := by
  intro s
  rw [StateT.run_bind, hg s]
  exact hf _ (hd s) _

/-- What comes next does not depend on what the draw comes to. -/
theorem Makes.next (hg : g.Makes d) (hf : ∀ a, (f a).Makes (e a)) : (g >>= f).Makes (d >>= e) :=
  hg.bind (Draw.always_true d) fun a _ => hf a

theorem Makes.map (hg : g.Makes d) (h : α → β) : (h <$> g).Makes (h <$> d) := by
  rw [map_eq_pure_bind, map_eq_pure_bind]
  exact hg.next fun a => makes_pure (h a)

theorem Stops.map (hg : g.Stops) (h : α → β) : (h <$> g).Stops := by
  intro s
  rw [StateT.run_map, hg s]
  rfl

theorem Stops.bind (hg : g.Stops) (f : α → Attempt β) : (g >>= f).Stops := by
  intro s
  rw [StateT.run_bind, hg s]
  rfl

/-- What comes after stops, whatever comes before. -/
theorem stops_bind (hf : ∀ a, (f a).Stops) : (g >>= f).Stops := by
  intro s
  rw [StateT.run_bind]
  cases hg : g.run s with
  | none => rfl
  | some r => exact hf r.1 r.2

theorem Makes.stops_bind (hg : g.Makes d) (hd : d.Always P) (hf : ∀ a, P a → (f a).Stops) :
    (g >>= f).Stops := by
  intro s
  rw [StateT.run_bind, hg s]
  exact hf _ (hd s) _

theorem makes_below (hn : 0 < n) : (Draw.below n : Attempt Nat).Makes (Draw.below n) :=
  (makes_rely (decide_eq_true hn)).next fun _ => makes_draw _

theorem makes_belowLong (hn : 0 < n) : (Draw.belowLong n : Attempt Nat).Makes (Draw.belowLong n) :=
  (makes_rely (decide_eq_true hn)).next fun _ => makes_draw _

theorem makes_chance {p : Float} (hp : 0.0 ≤ p ∧ p ≤ 1.0) :
    (Draw.chance p : Attempt Bool).Makes (Draw.chance p) := by
  refine (makes_rely (decide_eq_true hp)).next fun _ => ?_
  split
  · exact makes_pure _
  · exact (makes_draw _).next fun _ => makes_pure _

theorem makes_between {low high : Float} (h : low ≤ high) :
    (Draw.between low high : Attempt Float).Makes (Draw.between low high) :=
  (makes_rely (decide_eq_true h)).next fun _ => (makes_draw _).next fun _ => makes_pure _

/-- An attempt does nothing about an issue, as a draw does. -/
theorem makes_recordOnce (place : Nat) (issue : Issue) :
    (recordOnce place issue : Attempt Unit).Makes (recordOnce place issue) := makes_pure ()

end Attempt

open Attempt

variable {options : Options} {rows : Array (List Value)} {n width : Nat} {feed : Feed}
  {feeds : List Feed} {t : ColumnType} {base : Date} {row : UInt64}

/-- A column that refers to earlier rows has its place in them, and a type that is enumerated has
labels. -/
def Feed.Placed (width : Nat) : Feed → Prop
  | .earlier column => column < width
  | .key _ type | .random type _ _ => type.HasLabels
  | _ => True

/-- If the column is one of keys, the key of the row can be written. -/
def Feed.Writes (row : UInt64) : Feed → Prop
  | .key column type => type.canWriteKey column row = true
  | _ => True

/-! ## Plans -/

theorem Source.canWriteKeys_iff {source : Source} (pools : Pools) (ref : ColumnRef) :
    source.canWriteKeys ref.column n = true ↔
      ∀ r < n, (source.feed pools ref).Writes (UInt64.ofNat r) := by
  cases source with
  | key type => simp [canWriteKeys, feed, Feed.Writes]
  | parent target removed =>
    cases h : pools.available? target <;> cases removed <;> simp [canWriteKeys, feed, h, Feed.Writes]
  | earlier place => cases place <;> simp [canWriteKeys, feed, Feed.Writes]
  | shared target type =>
    cases h : pools.available? target with
    | none => simp [canWriteKeys, feed, h, Feed.Writes]
    | some pool =>
      by_cases hsame : target.table = ref.table <;> simp [canWriteKeys, feed, h, hsame, Feed.Writes]
  | random => simp [canWriteKeys, feed, Feed.Writes]

theorem TablePlan.canWriteKeys_iff {p : TablePlan} {rows : UInt64} (pools : Pools) :
    p.canWriteKeys rows = true ↔
      ∀ feed ∈ p.feeds pools, ∀ r < rows.toNat, feed.Writes (UInt64.ofNat r) := by
  rw [canWriteKeys, List.all_eq_true, feeds, List.forall_mem_map]
  exact forall₂_congr fun c _ => Source.canWriteKeys_iff pools (p.address c)

/-- What a column is fed with comes from a place in the table and from types that the schema
writes. -/
theorem Job.placed_feed (job : Job) (table : Table) (c : Column) (pools : Pools) (ref : ColumnRef) :
    ((job.source table c).feed pools ref).Placed table.columns.length := by
  have hlabels := ColumnType.hasLabels_resolve job.catalog c.dataType
  unfold Job.source sourceOf
  generalize ColumnType.resolve job.catalog c.dataType = type at hlabels ⊢
  dsimp only
  split
  · rename_i target _
    split
    · cases hplace : (table.columns.map (·.name)).idxOf? target.column with
      | none => trivial
      | some place =>
        obtain ⟨hlt, -⟩ := List.idxOf?_eq_some_iff.1 hplace
        rwa [List.length_map] at hlt
    · simp only [Source.feed]
      split
      · split <;> trivial
      · trivial
  · split
    · simp only [Source.feed]
      split
      · split
        · exact hlabels
        · trivial
      · exact hlabels
    · split
      · exact hlabels
      · exact hlabels

theorem Job.placed_feeds (job : Job) (table : Table) (pools : Pools) :
    ∀ feed ∈ (job.plan table).feeds pools, feed.Placed ((job.plan table).feeds pools).length := by
  rw [feeds_plan, List.length_map, List.forall_mem_map]
  exact fun c _ => job.placed_feed table c pools _

/-! ## Values -/

theorem padded?_eq_some (h : width ≤ widestNumber) : padded? width n = some (padded width n) := if_pos h

theorem remainder?_eq_some {m : Nat} (h : 0 < n) : remainder? m n = some (m % n) :=
  if_neg (Nat.ne_of_gt h)

/-- Counting never starts over after nothing, as more than one ordinal has so many digits. -/
theorem remainder?_ordinal {ordinal : UInt64} (hpos : 0 < width) (hwidth : width < 20) :
    remainder? (ordinal - 1).toNat (UInt64.ofNat (Decimal.pow10 width) - 1).toNat =
      some ((ordinal - 1) % (UInt64.ofNat (Decimal.pow10 width) - 1)).toNat := by
  have hten : 10 ^ 1 ≤ 10 ^ width := Nat.pow_le_pow_right (by decide) hpos
  rw [UInt64.toNat_mod, remainder?_eq_some]
  rw [toNat_lastOrdinal hwidth]
  omega

/-- A text key is written unless it is the ordinal alone in too many digits. -/
theorem keyText?_eq (column : String) (ordinal : UInt64) (maxLength : Option Nat) :
    keyText? column ordinal maxLength =
      if maxLength.all (fun n => n ≤ widestNumber || (column ++ "_" ++ padded 5 ordinal.toNat).length ≤ n)
      then some (keyText column ordinal maxLength) else none := by
  have hfive : padded? 5 ordinal.toNat = some (padded 5 ordinal.toNat) := padded?_eq_some (by decide)
  unfold keyText? keyText
  simp only [hfive, Option.map_some, Option.bind_eq_bind, Option.bind_some]
  generalize column ++ "_" ++ padded 5 ordinal.toNat = long
  cases maxLength with
  | none => rfl
  | some n =>
    simp only [Option.all_some]
    split
    · rename_i hfits
      rw [if_pos (by simp [hfits])]
      rfl
    · rename_i hlong
      split
      · rename_i hzero
        rw [if_pos (by simp [hzero])]
        rfl
      · rename_i hzero
        split
        · rename_i hn
          have hnarrow : n ≤ widestNumber := by
            unfold widestNumber
            omega
          rw [remainder?_ordinal (Nat.pos_of_ne_zero hzero) hn, Option.bind_some,
            padded?_eq_some hnarrow, if_pos (by simp [hnarrow]), UInt64.ofNat_toNat]
        · by_cases hnarrow : n ≤ widestNumber
          · rw [padded?_eq_some hnarrow, if_pos (by simp [hnarrow])]
          · rw [if_neg (by simp [hnarrow, hlong])]
            exact if_neg hnarrow

/-- A key is made unless it cannot be written. -/
theorem ColumnType.key?_eq (hlabels : t.HasLabels) (column : String) (row : UInt64) (base : Date) :
    t.key? column row base = if t.canWriteKey column row then some (t.key column row base) else none := by
  unfold key? canWriteKey
  cases hfamily : t.family with
  | text =>
    dsimp only
    rw [keyText?_eq]
    cases hlength : t.maxLength with
    | none => simp [ColumnType.key, hfamily, hlength]
    | some n =>
      simp only [Option.all_some]
      split
      · rw [Option.map_some]
        simp [ColumnType.key, hfamily, hlength]
      · rfl
  | enumerated labels =>
    have hpos : 0 < labels.length := List.length_pos_of_ne_nil (hlabels labels hfamily)
    have hget : labels[row.toNat % labels.length]? = some (labels.getD (row.toNat % labels.length) "") := by
      rw [List.getElem?_eq_getElem (Nat.mod_lt _ hpos), List.getElem_eq_getD]
    simp only [remainder?_eq_some hpos, ColumnType.key, hfamily, Option.bind_eq_bind, Option.bind_some, hget]
    rfl
  | time =>
    have hday : 0 < secondsPerDay := by decide
    simp only [remainder?_eq_some hday, ColumnType.key, hfamily]
    rfl
  | boolean =>
    have htwo : 0 < 2 := by decide
    simp only [remainder?_eq_some htwo, ColumnType.key, hfamily]
    rfl
  | integer | decimal | date | timestamp | uuid | json => rfl

namespace Guarded

theorem makes_randomNumber : (randomNumber : Attempt Nat).Makes randomNumber :=
  (makes_belowLong (by decide)).next fun _ => makes_pure _

theorem makes_randomDate (base : Date) : (base.random : Attempt Date).Makes base.random :=
  (makes_belowLong (by decide)).next fun _ => makes_pure _

theorem makes_randomTime : (TimeOfDay.random : Attempt TimeOfDay).Makes TimeOfDay.random :=
  (makes_below (by decide)).next fun _ => makes_pure _

theorem makes_random (hlabels : t.HasLabels) (given : Option String) (base : Date) :
    (t.random given base : Attempt Value).Makes (t.random given base) := by
  unfold ColumnType.random
  cases hfamily : t.family with
  | integer => exact makes_randomNumber.next fun _ => makes_pure _
  | decimal => exact (makes_between (by decide +kernel)).next fun _ => makes_pure _
  | boolean => exact (makes_chance (by decide +kernel)).next fun _ => makes_pure _
  | date => exact (makes_randomDate base).next fun _ => makes_pure _
  | time => exact makes_randomTime.next fun _ => makes_pure _
  | timestamp => exact (makes_randomDate base).next fun _ => makes_randomTime.next fun _ => makes_pure _
  | uuid => exact (makes_draw _).next fun _ => makes_pure _
  | json => exact (makes_draw _).next fun _ => makes_randomNumber.next fun _ => makes_pure _
  | enumerated labels =>
    have hpos : 0 < labels.length := List.length_pos_of_ne_nil (hlabels labels hfamily)
    refine (makes_below hpos).bind (Draw.always_below hpos) fun i hi => ?_
    exact (makes_rely (decide_eq_true hi)).next fun _ => makes_pure _
  | text =>
    cases given with
    | some s => exact (makes_pure s).next fun _ => makes_pure _
    | none => exact (makes_draw _).next fun _ => makes_pure _

/-! ## Rows -/

theorem makes_earlierValue {nullRate : Float} (hrate : 0.0 ≤ nullRate ∧ nullRate ≤ 1.0)
    (hrows : ∀ row ∈ rows, row.length = width) {place : Nat} (hplace : place < width) :
    (earlierValue nullRate rows place : Attempt Value).Makes (earlierValue nullRate rows place) := by
  unfold earlierValue
  split
  · exact makes_pure _
  · rename_i hne
    have hpos : 0 < rows.size := by
      rw [Array.isEmpty_iff_size_eq_zero] at hne
      omega
    refine (makes_chance hrate).next fun taken => ?_
    split
    · exact makes_pure _
    · refine (makes_below hpos).bind (Draw.always_below hpos) fun i hi => ?_
      have hwidth : place < (rows.getD i []).length := by
        rw [← Array.getElem_eq_getD (h := hi), hrows _ (Array.getElem_mem hi)]
        exact hplace
      exact (makes_rely (decide_eq_true hwidth)).next fun _ => makes_pure _

theorem makes_hintedText (hint : Option Hint) :
    (hintedText hint : Attempt (Option String)).Makes (hintedText hint) := by
  cases hint with
  | none => exact makes_pure _
  | some hint => exact (makes_draw _).next fun _ => makes_pure _

section Pass

variable (hrate : 0.0 ≤ options.nullRate ∧ options.nullRate ≤ 1.0)
  (hrows : ∀ row ∈ rows, row.length = width)

include hrate hrows

theorem makes_link (hs : feed.Sized n) (hp : feed.Placed width) (place : Nat) (choices : Choices) :
    (feed.link options.nullRate rows place choices : Attempt (Value × Choices)).Makes
      (feed.link options.nullRate rows place choices) := by
  cases feed with
  | empty issue => exact (makes_recordOnce place issue).next fun _ => makes_pure _
  | sample table pool =>
    obtain ⟨hsize, hpos⟩ := hs
    have hpos : 0 < pool.size := hsize ▸ hpos
    refine (makes_below hpos).bind (Draw.always_below hpos) fun i hi => ?_
    exact (makes_rely (decide_eq_true hi)).next fun _ => makes_pure _
  | earlier place => exact (makes_earlierValue hrate hrows hp).next fun _ => makes_pure _
  | shared | key | random => exact makes_pure _

theorem makes_linkRow (hs : ∀ feed ∈ feeds, feed.Sized n) (hp : ∀ feed ∈ feeds, feed.Placed width)
    (place : Nat) (choices : Choices) :
    (linkRow options.nullRate rows place feeds choices : Attempt (List Value × Choices)).Makes
      (linkRow options.nullRate rows place feeds choices) := by
  induction feeds generalizing place choices with
  | nil => exact makes_pure _
  | cons feed feeds ih =>
    obtain ⟨hs, hsrest⟩ := List.forall_mem_cons.1 hs
    obtain ⟨hp, hprest⟩ := List.forall_mem_cons.1 hp
    refine (makes_link hrate hrows hs hp place choices).next fun r => ?_
    exact (ih hsrest hprest _ _).next fun _ => makes_pure _

end Pass

theorem makes_fill (hs : feed.Sized n) (hp : feed.Placed width) (hw : feed.Writes row) (place : Nat)
    (linked : Value) (choices : Choices) :
    (feed.fill base row place linked choices : Attempt (Value × Choices)).Makes
      (feed.fill base row place linked choices) := by
  cases feed with
  | shared table pool =>
    obtain ⟨hsize, hpos⟩ := hs
    unfold Feed.fill
    dsimp only
    split
    · exact makes_pure _
    · exact (makes_below (hsize ▸ hpos)).next fun _ => makes_pure _
  | key column type =>
    have hkey : type.key? column row base = some (type.key column row base) :=
      (ColumnType.key?_eq hp column row base).trans (if_pos hw)
    exact (makes_rely (Option.isSome_of_eq_some hkey)).next fun _ => makes_pure _
  | random type hint issue =>
    have hrest : ∀ given, Makes (do return (← type.random given base, choices))
        (do return (← type.random given base, choices)) := fun given =>
      (makes_random hp given base).next fun _ => makes_pure _
    cases issue with
    | none => exact (makes_pure _).next fun _ => (makes_hintedText _).next hrest
    | some issue => exact (makes_recordOnce place issue).next fun _ => (makes_hintedText _).next hrest
  | empty | sample | earlier => exact makes_pure _

theorem makes_fillRow (hs : ∀ feed ∈ feeds, feed.Sized n) (hp : ∀ feed ∈ feeds, feed.Placed width)
    (hw : ∀ feed ∈ feeds, feed.Writes row) (place : Nat) (linked : List Value) (choices : Choices) :
    (fillRow base row place feeds linked choices : Attempt (List Value)).Makes
      (fillRow base row place feeds linked choices) := by
  induction feeds generalizing place linked choices with
  | nil => exact makes_pure _
  | cons feed feeds ih =>
    obtain ⟨hs, hsrest⟩ := List.forall_mem_cons.1 hs
    obtain ⟨hp, hprest⟩ := List.forall_mem_cons.1 hp
    obtain ⟨hw, hwrest⟩ := List.forall_mem_cons.1 hw
    refine (makes_fill hs hp hw place _ choices).next fun r => ?_
    exact (ih hsrest hprest hwrest _ _ _).next fun _ => makes_pure _

theorem stops_fillRow (hp : ∀ feed ∈ feeds, feed.Placed width) (hno : ∃ feed ∈ feeds, ¬ feed.Writes row)
    (place : Nat) (linked : List Value) (choices : Choices) :
    (fillRow base row place feeds linked choices : Attempt (List Value)).Stops := by
  induction feeds generalizing place linked choices with
  | nil => simp at hno
  | cons feed feeds ih =>
    obtain ⟨hp, hprest⟩ := List.forall_mem_cons.1 hp
    by_cases hw : feed.Writes row
    · have hrest : ∃ f ∈ feeds, ¬ f.Writes row := by
        obtain ⟨f, hf, hno⟩ := hno
        rcases List.mem_cons.1 hf with rfl | hf
        · exact absurd hw hno
        · exact ⟨f, hf, hno⟩
      exact stops_bind fun r => (ih hprest hrest _ _ _).bind _
    · cases feed with
      | key column type =>
        have hkey : type.key? column row base = none :=
          (ColumnType.key?_eq hp column row base).trans (if_neg hw)
        exact ((stops_rely (Option.isSome_eq_false_iff.2 (hkey ▸ rfl))).bind _).bind _
      | empty | sample | earlier | shared | random => exact absurd trivial hw

section Rows

variable (hrate : 0.0 ≤ options.nullRate ∧ options.nullRate ≤ 1.0)
  (hs : ∀ feed ∈ feeds, feed.Sized n) (hp : ∀ feed ∈ feeds, feed.Placed feeds.length)

include hrate hs hp

theorem makes_nextRow (hrows : ∀ row ∈ rows, row.length = feeds.length)
    (hw : ∀ feed ∈ feeds, feed.Writes (UInt64.ofNat rows.size)) :
    (nextRow options feeds rows : Attempt (List Value)).Makes (nextRow options feeds rows) :=
  (makes_linkRow hrate hrows hs hp 0 _).next fun _ => makes_fillRow hs hp hw 0 _ _

omit hrate hs in
theorem stops_nextRow (hno : ∃ feed ∈ feeds, ¬ feed.Writes (UInt64.ofNat rows.size)) :
    (nextRow options feeds rows : Attempt (List Value)).Stops :=
  stops_bind fun _ => stops_fillRow hp hno 0 _ _

omit hrate hp in
/-- Rows as long as there are columns stay so when one more is filled. -/
theorem always_push (hn : 0 < n) (hrows : ∀ row ∈ rows, row.length = feeds.length) :
    Draw.Always (nextRow options feeds rows) fun row => ∀ r ∈ rows.push row, r.length = feeds.length := by
  refine (always_nextRow hn hs).mono fun row hrow r hr => ?_
  obtain ⟨chosen, hrow⟩ := hrow
  rcases Array.mem_push.1 hr with hr | rfl
  · exact hrows r hr
  · exact hrow.gives.length_eq.symm

theorem makes_fillRows {count : Nat} (hcount : count ≤ n) (hrows : ∀ row ∈ rows, row.length = feeds.length)
    (hw : ∀ feed ∈ feeds, ∀ r < rows.size + count, feed.Writes (UInt64.ofNat r)) :
    (fillRows options feeds count rows : Attempt (Array (List Value))).Makes
      (fillRows options feeds count rows) := by
  induction count generalizing rows with
  | zero => exact makes_pure _
  | succ count ih =>
    refine (makes_nextRow hrate hs hp hrows fun f hf => hw f hf _ (by omega)).bind
      (always_push hs (by omega) hrows) fun row hrow => ?_
    refine ih (by omega) hrow fun f hf r hr => hw f hf r ?_
    rw [Array.size_push] at hr
    omega

theorem stops_fillRows {count r : Nat} (hcount : count ≤ n)
    (hrows : ∀ row ∈ rows, row.length = feeds.length) (hr : rows.size ≤ r) (hlt : r < rows.size + count)
    (hno : ∃ feed ∈ feeds, ¬ feed.Writes (UInt64.ofNat r)) :
    (fillRows options feeds count rows : Attempt (Array (List Value))).Stops := by
  induction count generalizing rows with
  | zero => omega
  | succ count ih =>
    by_cases hw : ∀ feed ∈ feeds, feed.Writes (UInt64.ofNat rows.size)
    · refine (makes_nextRow hrate hs hp hrows hw).stops_bind
        (always_push hs (by omega) hrows) fun row hrow => ?_
      -- The row at which it stops comes later.
      have hne : r ≠ rows.size := by
        rintro rfl
        obtain ⟨f, hf, hno⟩ := hno
        exact hno (hw f hf)
      refine ih (by omega) hrow ?_ ?_
      · rw [Array.size_push]
        omega
      · rw [Array.size_push]
        omega
    · exact (stops_nextRow hp (by simpa using hw)).bind _

end Rows

/-! ## Runs -/

section Tables

variable {job : Job} {pools : Pools} (hrate : 0.0 ≤ job.options.nullRate ∧ job.options.nullRate ≤ 1.0)
  (heven : pools.Even job.options.rows.toNat) (table : Table)

include hrate heven

theorem makes_fillTable (hw : (job.plan table).canWriteKeys job.options.rows = true) :
    (job.fillTable pools (job.plan table) : Attempt DataTable).Makes (job.drawTable pools table) := by
  have hwrites := (TablePlan.canWriteKeys_iff pools).1 hw
  rw [Job.fillTable, Job.drawTable, Job.fillTable, forM_record_eq, forM_record_eq]
  refine (makes_pure _).next fun _ => ?_
  refine (makes_fillRows hrate (Job.sized_feeds heven table) (job.placed_feeds table pools)
    (Nat.le_refl _) (by simp) fun feed hfeed r hr => ?_).next fun _ => makes_pure _
  exact hwrites feed hfeed r (by simpa using hr)

theorem stops_fillTable (hw : (job.plan table).canWriteKeys job.options.rows = false) :
    (job.fillTable pools (job.plan table) : Attempt DataTable).Stops := by
  have hno := (TablePlan.canWriteKeys_iff pools).not.1 (Bool.not_eq_true _ ▸ hw)
  simp only [not_forall] at hno
  obtain ⟨feed, hfeed, r, hr, hno⟩ := hno
  refine stops_bind fun _ => ?_
  exact (stops_fillRows hrate (Job.sized_feeds heven table) (job.placed_feeds table pools) (Nat.le_refl _)
    (by simp) (Nat.zero_le r) (by simpa using hr) ⟨feed, hfeed, hno⟩).bind _

end Tables

/-- A result, unless it is that a key is too wide. -/
def unlessTooWide : Except Fault Run → Option (Except Fault Run)
  | .error .keyTooWide => none
  | result => some result

theorem unlessTooWide_eq_none_iff {result : Except Fault Run} :
    unlessTooWide result = none ↔ result = .error .keyTooWide := by
  cases result with
  | ok run => simp [unlessTooWide]
  | error fault => cases fault <;> simp [unlessTooWide]

variable {job : Job} {run : Run} {names rest : List String}

theorem fillTables_eq (hd : job.catalog.Distinct)
    (hrate : 0.0 ≤ job.options.nullRate ∧ job.options.nullRate ≤ 1.0) (h : run.Sound job names)
    (hn : (names ++ rest).Nodup) (s : Keystream) :
    fillTables job rest run s = unlessTooWide (job.fillTables rest run s).1 := by
  induction rest generalizing run names s with
  | nil => rfl
  | cons name rest ih =>
    cases htable : job.catalog.table? name with
    | none => simp [fillTables, Job.fillTables, htable, unlessTooWide]
    | some table =>
      obtain ⟨ht, rfl⟩ := Catalog.mem_of_table? htable
      rw [fillTables, Job.fillTables_cons htable, htable]
      dsimp only
      rw [tells_fillTable]
      cases hw : (job.plan table).canWriteKeys job.options.rows with
      | false =>
        rw [(stops_fillTable hrate h.even table hw).map _ s]
        rfl
      | true =>
        rw [(makes_fillTable hrate h.even table hw).map _ s, if_pos rfl]
        show (if ((job.drawTable run.pools table).run s).1.isSupported = true then
          fillTables job rest (run.add job.options job.retained ((job.drawTable run.pools table).run s).1
            ((job.plan table).noted run.pools job.options.rows (.ofReport run.report)).report) _
          else _) = _
        rw [(TablePlan.noted_ofReport _ _ _ _).1]
        split
        · rename_i hsupported
          have hnew := not_mem_of_nodup hn
          rw [List.append_cons] at hn
          have hfills := Job.always_fillTable h.even table s
          exact ih (h.add hd ht hnew hfills hsupported) hn _
        · rfl

/-- **A run stops at a key that is too wide, and only there**: it meets no empty range, no place
past an end and no division by zero. -/
theorem generate_eq (hd : job.catalog.Distinct) (hn : job.order.tables.Nodup) :
    generate job = unlessTooWide job.generate.1 := by
  unfold generate Job.generate
  split
  · rename_i hvalid
    have hrate : 0.0 ≤ job.options.nullRate ∧ job.options.nullRate ≤ 1.0 := by
      simpa [Options.isValid] using hvalid
    exact fillTables_eq hd hrate (Run.sound_start job) hn _
  · rfl

end Guarded
end SeedData
