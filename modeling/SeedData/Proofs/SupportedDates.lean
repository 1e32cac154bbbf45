/-
Where the base date leaves room for a year and for the rows (`Options.DatesFit`), every date of a
run lies in the supported years (`Job.Fills.isSupported`): dates that are made up are within that
room, and all others come from rows filled before.
-/
import SeedData.Proofs.GuardedRuns

namespace SeedData

variable {options : Options} {feed : Feed} {t : ColumnType} {v : Value} {n width : Nat} {pools : Pools}
  {job : Job} {run : Run} {table : Table} {filled : DataTable}

/-- The base date, and that a year later or as many days as there are rows, whichever is later,
lie in the supported years. -/
structure Options.DatesFit (options : Options) : Prop where
  base : options.baseDate.isSupported = true
  latest : (options.baseDate.addDays (max 365 options.rows.toNat : Nat)).isSupported = true

namespace Options.DatesFit

theorem isSupported (h : options.DatesFit) {days : Nat} (hdays : days ≤ max 365 options.rows.toNat) :
    (options.baseDate.addDays days).isSupported = true := by
  obtain ⟨hfirst, -⟩ := Date.isSupported_iff.1 h.base
  obtain ⟨-, hlast⟩ := Date.isSupported_iff.1 h.latest
  refine Date.isSupported_iff.2 ⟨?_, ?_⟩
  · simp only [Date.addDays]
    omega
  · simp only [Date.addDays] at hlast ⊢
    omega

theorem rows_lt (h : options.DatesFit) : options.rows.toNat < 2 ^ 28 := by
  have hspan := Date.days_lt (h.isSupported (Nat.zero_le _)) (h.isSupported (Nat.le_max_right 365 _))
  omega

end Options.DatesFit

/-! ## Values -/

theorem ColumnType.Conforms.isSupported {base : Date} {keyed : Prop} {row : Nat}
    (h : t.Conforms base keyed row v) (hrow : (base.addDays row).isSupported = true)
    (hyear : ∀ days : Nat, days ≤ 365 → (base.addDays days).isSupported = true) :
    v.isSupported = true := by
  have hdate : ∀ days : Nat, (keyed → days = row) → (¬ keyed → days ≤ 365) →
      (base.addDays days).isSupported = true := by
    intro days hkeyed hrandom
    by_cases hk : keyed
    · rw [hkeyed hk]
      exact hrow
    · exact hyear days (hrandom hk)
  unfold Conforms at h
  cases hfamily : t.family with
  | date =>
    rw [hfamily] at h
    obtain ⟨days, rfl, hkeyed, hrandom⟩ := h
    exact hdate days hkeyed hrandom
  | timestamp =>
    rw [hfamily] at h
    obtain ⟨days, time, rfl, hkeyed, hrandom⟩ := h
    exact hdate days hkeyed hrandom
  | decimal =>
    rw [hfamily] at h
    by_cases hk : keyed
    · obtain ⟨n, rfl⟩ := h.1 hk
      rfl
    · obtain ⟨x, rfl⟩ := h.2 hk
      rfl
  | integer =>
    rw [hfamily] at h
    obtain ⟨n, rfl, -⟩ := h
    rfl
  | boolean | time | uuid | json =>
    rw [hfamily] at h
    obtain ⟨x, rfl⟩ := h
    rfl
  | enumerated labels =>
    rw [hfamily] at h
    obtain ⟨s, -, rfl⟩ := h
    rfl
  | text =>
    rw [hfamily] at h
    obtain ⟨s, rfl, -⟩ := h
    rfl

/-- No pool holds a date outside the supported years. -/
def Pools.Supported (pools : Pools) : Prop :=
  ∀ ref pool, pools.values? ref = some pool → ∀ v ∈ pool, v.isSupported = true

/-- The pool of a feed holds no date outside the supported years. -/
def Feed.Supported : Feed → Prop
  | .sample _ pool | .shared _ pool => ∀ v ∈ pool, v.isSupported = true
  | _ => True

theorem Pools.Supported.supported_feed (h : pools.Supported) (source : Source) (ref : ColumnRef) :
    (source.feed pools ref).Supported := by
  cases hfeed : source.feed pools ref with
  | sample =>
    obtain ⟨target, -, -, hpool⟩ := Source.feed_eq_sample_iff.1 hfeed
    exact h target _ (available?_eq_some_iff.1 hpool).1
  | shared =>
    obtain ⟨target, type, -, -, -, hpool⟩ := Source.feed_eq_shared_iff.1 hfeed
    exact h target _ (available?_eq_some_iff.1 hpool).1
  | empty | earlier | key | random => trivial

theorem Run.Sound.supportedPools {names : List String} (h : run.Sound job names) : run.pools.Supported := by
  intro ref pool hpool v hv
  rw [h.pools] at hpool
  split at hpool
  · obtain ⟨t, ht, hvalues⟩ := Option.bind_eq_some_iff.1 hpool
    obtain ⟨hmem, -⟩ := Dataset.mem_of_table? ht
    obtain ⟨i, hi⟩ := Array.mem_iff_getElem?.1 hv
    rw [← DataTable.value?_eq_of_pool? hvalues (h.rectangular t hmem)] at hi
    exact t.isSupported_value (h.supported t hmem) hi
  · cases hpool

/-- A cell holds a supported date, if all rows before it and the pools do. -/
theorem Feed.Gives.isSupported {earlierRows : List (List Value)} {chosen : String → Nat}
    (h : feed.Gives options earlierRows chosen v) (hfit : options.DatesFit)
    (hrow : earlierRows.length < options.rows.toNat)
    (hearlier : ∀ row ∈ earlierRows, ∀ v ∈ row, v.isSupported = true)
    (hp : feed.Placed width) (hs : feed.Supported) : v.isSupported = true := by
  have hyear : ∀ days : Nat, days ≤ 365 → (options.baseDate.addDays days).isSupported = true :=
    fun days hdays => hfit.isSupported (Nat.le_trans hdays (Nat.le_max_left _ _))
  have hday : (options.baseDate.addDays earlierRows.length).isSupported = true :=
    hfit.isSupported (Nat.le_trans hrow.le (Nat.le_max_right _ _))
  cases feed with
  | empty =>
    rw [show v = .null from h]
    rfl
  | sample table pool =>
    obtain ⟨i, hi⟩ := h
    exact hs v (Array.mem_of_getElem? hi)
  | earlier column =>
    obtain ⟨s, rfl⟩ := h
    rcases always_earlierValue options.nullRate column s with ⟨hnull, -⟩ | ⟨-, row, hmem, hvalue⟩
    · rw [hnull]
      rfl
    · rw [hvalue, List.getD_eq_getElem?_getD]
      cases hget : row[column]? with
      | none => rfl
      | some w => exact hearlier row hmem w (List.mem_of_getElem? hget)
  | shared table pool => exact hs v (Array.mem_of_getElem? h)
  | key column type =>
    have hcount : earlierRows.length < 2 ^ 63 := Nat.lt_trans (Nat.lt_trans hrow hfit.rows_lt) (by decide)
    have hconforms : type.Conforms options.baseDate True earlierRows.length _ :=
      type.conforms_key trivial hp (fun _ => hcount) column
    rw [show v = _ from h]
    exact hconforms.isSupported hday hyear
  | random type =>
    obtain ⟨given, s, rfl⟩ := h
    exact (type.always_random not_false hp given s).isSupported hday hyear

/-! ## Tables -/

/-- A table that is filled from pools with supported dates has no others. -/
theorem Job.Fills.isSupported (h : job.Fills pools table filled) (hfit : job.options.DatesFit)
    (hpools : pools.Supported) : filled.isSupported = true := by
  have hrows : ∀ r (hr : r < filled.rows.toList.length), ∀ v ∈ filled.rows.toList[r], v.isSupported = true := by
    intro r hr
    induction r using Nat.strongRecOn with
    | ind r ih =>
      intro v hv
      obtain ⟨chosen, hrow⟩ := h.follow.getElem hr
      obtain ⟨hlength, hgives⟩ := List.forall₂_iff_get.1 hrow.gives
      obtain ⟨i, hi, rfl⟩ := List.getElem_of_mem hv
      have hfeed := List.getElem_mem (hlength ▸ hi)
      obtain ⟨c, -, hsource⟩ := List.mem_map.1 hfeed
      refine (hgives i (hlength ▸ hi) hi).isSupported hfit ?_ ?_ (job.placed_feeds table pools _ hfeed) ?_
      · have hsize : filled.rows.toList.length = job.options.rows.toNat := h.size
        rw [List.length_take]
        omega
      · intro row hmem
        obtain ⟨j, hj, rfl⟩ := List.mem_take_iff_getElem.1 hmem
        exact ih j (by omega) (by omega)
      · show Feed.Supported ((job.plan table).feeds pools)[i]
        rw [← hsource]
        exact hpools.supported_feed c.source _
  refine Array.all_eq_true_iff_forall_mem.2 fun row hrow => List.all_eq_true.2 ?_
  obtain ⟨r, hr, rfl⟩ := List.getElem_of_mem (Array.mem_toList_iff.2 hrow)
  exact hrows r hr

end SeedData
