/-
What a filled row holds. `Feed.Gives` says it of one column; `RowFollows` of all,
where the columns that take something from another table agree on one of its rows.

The first pass chooses rows of other tables and the second keeps to them; a choice
is never changed (`Extends`), so the choices at the end are those of both passes.
-/
import Mathlib.Data.List.Forall2
import SeedData.Proofs.Chance
import SeedData.Run.Row

namespace SeedData

/-- What a feed gives a row that comes after the given ones, when the rows chosen of
other tables are these. -/
def Feed.Gives (options : Options) (earlierRows : List (List Value)) (chosen : String → Nat) :
    Feed → Value → Prop
  | .empty _, v => v = .null
  | .sample _ pool, v => ∃ i : Nat, pool[i]? = some v
  | .earlier column, v =>
    ∃ s, v = ((earlierValue options.nullRate earlierRows.toArray column : Draw Value).run s).1
  | .shared table pool, v => pool[chosen table]? = some v
  | .key column type, v => v = type.key column (UInt64.ofNat earlierRows.length) options.baseDate
  | .random type _ _, v =>
    ∃ (given : Option String) (s : Keystream),
      v = ((type.random given options.baseDate : Draw Value).run s).1

/-- Whether the first pass fills a column. -/
def Feed.isLink : Feed → Bool
  | .empty _ | .sample _ _ | .earlier _ => true
  | _ => false

/-- What the first pass leaves in a column. -/
def Feed.Links (options : Options) (earlierRows : List (List Value)) (feed : Feed) (v : Value) : Prop :=
  feed.isLink = true → ∀ chosen, feed.Gives options earlierRows chosen v

/-- The pool of a feed has `n` values, and there are some. -/
def Feed.Sized (n : Nat) : Feed → Prop
  | .sample _ pool | .shared _ pool => pool.size = n ∧ 0 < n
  | _ => True

/-- Every chosen row is one of the first `n`. -/
def Choices.Below (n : Nat) (choices : Choices) : Prop := ∀ table i, choices.get? table = some i → i < n

/-- What was chosen stays chosen. -/
def Choices.Extends (later choices : Choices) : Prop :=
  ∀ table i, choices.get? table = some i → later.get? table = some i

/-- The function tells all that was chosen. -/
def Choices.Told (choices : Choices) (chosen : String → Nat) : Prop :=
  ∀ table i, choices.get? table = some i → chosen table = i

/-- The row chosen of a table, or the first. -/
def Choices.chosen (choices : Choices) (table : String) : Nat := (choices.get? table).getD 0

variable {options : Options} {rows : Array (List Value)} {choices later : Choices} {n i place : Nat}
  {feed : Feed} {feeds : List Feed} {table : String} {pool : Array Value}

namespace Choices

theorem Extends.refl (choices : Choices) : Extends choices choices := fun _ _ h => h

theorem Extends.trans {last : Choices} (h : Extends last later) (h' : Extends later choices) :
    Extends last choices := fun table i hi => h table i (h' table i hi)

theorem Told.of_extends {chosen : String → Nat} (h : Told later chosen) (he : Extends later choices) :
    Told choices chosen := fun table i hi => h table i (he table i hi)

theorem get?_note (choices : Choices) (table table' : String) (row : Nat) :
    (choices.note table row).get? table' =
      if choices.get? table = none ∧ table' = table then some row else choices.get? table' := by
  unfold note
  cases h : choices.get? table with
  | none => simp [SortedMap.contains, h, SortedMap.get?_insert]
  | some j => simp [SortedMap.contains, h]

theorem extends_note (choices : Choices) (table : String) (row : Nat) :
    Extends (choices.note table row) choices := by
  intro table' i hi
  rw [get?_note, if_neg]
  · exact hi
  · intro h
    rw [h.2, h.1] at hi
    cases hi

theorem Below.note (h : Below n choices) (hi : i < n) : Below n (choices.note table i) := by
  intro table' j hj
  rw [get?_note] at hj
  split at hj
  · cases hj
    exact hi
  · exact h table' j hj

theorem below_empty (n : Nat) : Below n SortedMap.empty := fun table i h => by simp at h

theorem told_chosen (choices : Choices) : Told choices choices.chosen := fun table i hi => by
  simp [chosen, hi]

theorem Below.chosen_lt (h : Below n choices) (hn : 0 < n) (table : String) :
    choices.chosen table < n := by
  unfold chosen
  cases hi : choices.get? table with
  | none => exact hn
  | some i => exact h table i hi

end Choices

/-! ## The first pass -/

/-- What the first pass over a column comes to. -/
structure Linked (options : Options) (rows : List (List Value)) (n : Nat) (choices : Choices) (feed : Feed)
    (result : Value × Choices) : Prop where
  links : feed.Links options rows result.1
  extends_ : result.2.Extends choices
  below : result.2.Below n
  /-- The first sample of a table chooses its row. -/
  first : ∀ table pool, feed = .sample table pool → choices.get? table = none →
    ∃ i, result.2.get? table = some i ∧ pool[i]? = some result.1
  other : ∀ table, choices.get? table = none → (∀ pool, feed ≠ .sample table pool) →
    result.2.get? table = none

/-- A column that does not sample another table leaves the choices as they are. -/
theorem Linked.of_same (hb : choices.Below n) {v : Value}
    (hl : feed.Links options rows.toList v) (hs : ∀ table pool, feed ≠ .sample table pool) :
    Linked options rows.toList n choices feed (v, choices) where
  links := hl
  extends_ := .refl choices
  below := hb
  first table pool h := absurd h (hs table pool)
  other _ h _ := h

theorem getElem?_of_lt (h : i < pool.size) : pool[i]? = some (pool.getD i .null) := by
  rw [Array.getElem?_eq_getElem h, Array.getElem_eq_getD]

/-- A value of an earlier row is missing only where there is no such row or by chance. -/
theorem always_earlierValue (nullRate : Float) (column : Nat) :
    Draw.Always (earlierValue nullRate rows column) fun v =>
      (v = .null ∧ (rows.toList = [] ∨ (nullRate == 0.0) = false)) ∨
        ((nullRate == 1.0) = false ∧ ∃ row ∈ rows.toList, v = row.getD column .null) := by
  unfold earlierValue
  split
  · rename_i hempty
    exact Draw.Always.pure (.inl ⟨rfl, .inl (by simpa using hempty)⟩)
  · rename_i hne
    have hpos : 0 < rows.size := by
      rw [Array.isEmpty_iff_size_eq_zero] at hne
      omega
    refine Draw.Always.bind (Draw.always_chance _) fun taken htaken => ?_
    split
    · rename_i hnull
      exact Draw.Always.pure (.inl ⟨rfl, .inr (htaken.1 hnull)⟩)
    · rename_i hnull
      refine Draw.Always.bind (Draw.always_below hpos) fun i hi => ?_
      refine Draw.Always.bind (Draw.always_true _) fun _ _ => Draw.Always.pure (.inr ?_)
      refine ⟨htaken.2 (Bool.of_not_eq_true hnull), rows[i], by simp, ?_⟩
      rw [← Array.getElem_eq_getD]

theorem always_link (hb : choices.Below n) (hs : feed.Sized n) (place : Nat) :
    Draw.Always (feed.link options.nullRate rows place choices) (Linked options rows.toList n choices feed) := by
  cases feed with
  | empty issue =>
    refine Draw.Always.bind (Draw.always_true _) fun _ _ => Draw.Always.pure ?_
    exact .of_same hb (fun _ _ => rfl) (by simp)
  | sample table pool =>
    obtain ⟨hsize, hpos⟩ := hs
    refine Draw.Always.bind (Draw.always_below (hsize ▸ hpos)) fun i hi => ?_
    refine Draw.Always.bind (Draw.always_true _) fun _ _ => Draw.Always.pure ?_
    have hv := getElem?_of_lt hi
    refine ⟨fun _ _ => ⟨i, hv⟩, choices.extends_note table i, hb.note (hsize ▸ hi), ?_, ?_⟩
    · intro table' pool' he hnone
      cases he
      exact ⟨i, by simp [Choices.get?_note, hnone], hv⟩
    · intro table' hnone hne
      have hne' : table' ≠ table := fun he => hne pool (he ▸ rfl)
      simp [Choices.get?_note, hne', hnone]
  | earlier column =>
    refine Draw.Always.bind (Draw.always_outcome _) fun v hv => Draw.Always.pure ?_
    exact .of_same hb (fun _ _ => hv) (by simp)
  | shared | key | random => exact Draw.Always.pure (.of_same hb (by simp [Feed.Links, Feed.isLink]) (by simp))

/-- What the first pass over the columns of a row comes to. -/
structure RowLinked (options : Options) (rows : List (List Value)) (n : Nat) (choices : Choices)
    (feeds : List Feed) (result : List Value × Choices) : Prop where
  links : List.Forall₂ (Feed.Links options rows) feeds result.1
  extends_ : result.2.Extends choices
  below : result.2.Below n
  first : ∀ before table pool after, feeds = before ++ .sample table pool :: after →
    (∀ pool', .sample table pool' ∉ before) → choices.get? table = none →
      ∃ i, result.2.get? table = some i ∧ i < pool.size ∧ pool[i]? = result.1[before.length]?

theorem always_linkRow (hb : choices.Below n) (hs : ∀ feed ∈ feeds, feed.Sized n) (place : Nat) :
    Draw.Always (linkRow options.nullRate rows place feeds choices)
      (RowLinked options rows.toList n choices feeds) := by
  induction feeds generalizing place choices with
  | nil => exact Draw.Always.pure ⟨.nil, .refl choices, hb, by simp⟩
  | cons feed feeds ih =>
    refine Draw.Always.bind (always_link hb (hs feed List.mem_cons_self) place) fun r hr => ?_
    refine Draw.Always.bind (ih hr.below (fun f hf => hs f (List.mem_cons_of_mem feed hf)) _) fun q hq => ?_
    refine Draw.Always.pure ⟨.cons hr.links hq.links, hq.extends_.trans hr.extends_, hq.below, ?_⟩
    intro before table pool after hl hbefore hnone
    rcases before with _ | ⟨f, before⟩
    · simp only [List.nil_append, List.cons.injEq] at hl
      obtain ⟨i, hi, hv⟩ := hr.first table pool hl.1 hnone
      exact ⟨i, hq.extends_ table i hi, (Array.getElem?_eq_some_iff.1 hv).1, by simp [hv]⟩
    · simp only [List.cons_append, List.cons.injEq] at hl
      obtain ⟨rfl, hl⟩ := hl
      have hother := hr.other table hnone fun pool' he => hbefore pool' (he ▸ List.mem_cons_self)
      obtain ⟨i, hi, hlt, hv⟩ := hq.first before table pool after hl
        (fun pool' hmem => hbefore pool' (List.mem_cons_of_mem feed hmem)) hother
      exact ⟨i, hi, hlt, by simpa using hv⟩

/-! ## The second pass -/

/-- What the second pass over a column comes to, where the first has left this value. -/
structure Filled (options : Options) (rows : List (List Value)) (n : Nat) (choices : Choices) (feed : Feed)
    (linked : Value) (result : Value × Choices) : Prop where
  gives : ∀ chosen, result.2.Told chosen → feed.Gives options rows chosen result.1
  /-- The value of the first pass stays. -/
  keeps : feed.isLink = true → result.1 = linked
  extends_ : result.2.Extends choices
  below : result.2.Below n

variable {linked : Value}

theorem always_fill (hb : choices.Below n) (hs : feed.Sized n) (hl : feed.Links options rows.toList linked)
    (place : Nat) : Draw.Always (feed.fill options.baseDate (UInt64.ofNat rows.size) place linked choices)
      (Filled options rows.toList n choices feed linked) := by
  cases feed with
  | empty | sample | earlier =>
    exact Draw.Always.pure ⟨fun chosen _ => hl rfl chosen, fun _ => rfl, .refl choices, hb⟩
  | shared table pool =>
    obtain ⟨hsize, hpos⟩ := hs
    unfold Feed.fill
    dsimp only
    split
    · rename_i i hi
      refine Draw.Always.pure ⟨fun chosen ht => ?_, by simp [Feed.isLink], .refl choices, hb⟩
      show pool[chosen table]? = _
      rw [ht table i hi, getElem?_of_lt (hsize ▸ hb table i hi)]
    · rename_i hnone
      refine Draw.Always.bind (Draw.always_below (hsize ▸ hpos)) fun i hi => Draw.Always.pure ?_
      refine ⟨fun chosen ht => ?_, by simp [Feed.isLink], choices.extends_note table i, hb.note (hsize ▸ hi)⟩
      show pool[chosen table]? = _
      rw [ht table i (by simp [Choices.get?_note, hnone]), getElem?_of_lt hi]
  | key column type =>
    refine Draw.Always.bind (Draw.always_true _) fun _ _ => Draw.Always.pure ?_
    exact ⟨fun _ _ => by simp [Feed.Gives], by simp [Feed.isLink], .refl choices, hb⟩
  | random type hint issue =>
    refine Draw.Always.bind (Draw.always_true _) fun _ _ => ?_
    refine Draw.Always.bind (Draw.always_true _) fun given _ => ?_
    exact fun s => ⟨fun _ _ => ⟨given, s, rfl⟩, by simp [Feed.isLink], .refl choices, hb⟩

/-- What the second pass over the columns of a row comes to; `last` are the choices
after both passes. -/
structure RowFilled (options : Options) (rows : List (List Value)) (n : Nat) (choices : Choices)
    (feeds : List Feed) (linked values : List Value) (last : Choices) : Prop where
  gives : ∀ chosen, last.Told chosen → List.Forall₂ (Feed.Gives options rows chosen) feeds values
  /-- The values of the first pass stay. -/
  keeps : ∀ (i : Nat) (feed : Feed), feeds[i]? = some feed → feed.isLink = true → values[i]? = linked[i]?
  extends_ : last.Extends choices
  below : last.Below n

theorem always_fillRow {linked : List Value} (hb : choices.Below n) (hs : ∀ feed ∈ feeds, feed.Sized n)
    (hl : List.Forall₂ (Feed.Links options rows.toList) feeds linked) (place : Nat) :
    Draw.Always (fillRow options.baseDate (UInt64.ofNat rows.size) place feeds linked choices)
      fun values => ∃ last, RowFilled options rows.toList n choices feeds linked values last := by
  induction hl generalizing place choices with
  | nil => exact Draw.Always.pure ⟨choices, fun _ _ => .nil, by simp, .refl choices, hb⟩
  | @cons feed value feeds linked hfeed hl ih =>
    have hrest : ∀ f ∈ feeds, f.Sized n := fun f hf => hs f (List.mem_cons_of_mem feed hf)
    refine Draw.Always.bind (always_fill hb (hs feed List.mem_cons_self) hfeed place) fun r hr => ?_
    refine Draw.Always.bind (ih hr.below hrest _) fun values hv => Draw.Always.pure ?_
    obtain ⟨last, hv⟩ := hv
    refine ⟨last, fun chosen ht => ?_, fun i f hf hlink => ?_, hv.extends_.trans hr.extends_, hv.below⟩
    · exact .cons (hr.gives chosen (ht.of_extends hv.extends_)) (hv.gives chosen ht)
    · cases i with
      | zero =>
        obtain rfl := Option.some.inj hf
        exact congrArg some (hr.keeps hlink)
      | succ i => exact hv.keeps i f hf hlink

/-! ## Rows -/

/-- What holds of a row that comes after the given ones, when these rows are chosen of
other tables, of which each has `n`. -/
structure RowFollows (options : Options) (n : Nat) (feeds : List Feed) (earlierRows : List (List Value))
    (chosen : String → Nat) (row : List Value) : Prop where
  below : ∀ table, chosen table < n
  gives : List.Forall₂ (Feed.Gives options earlierRows chosen) feeds row
  /-- The first sample of a table is of the chosen row. -/
  first : ∀ before table pool after, feeds = before ++ .sample table pool :: after →
    (∀ pool', .sample table pool' ∉ before) → pool[chosen table]? = row[before.length]?

theorem always_nextRow (hn : 0 < n) (hs : ∀ feed ∈ feeds, feed.Sized n) :
    Draw.Always (nextRow options feeds rows) fun row =>
      ∃ chosen, RowFollows options n feeds rows.toList chosen row := by
  refine Draw.Always.bind (always_linkRow (Choices.below_empty n) hs 0) fun linked hlinked => ?_
  refine Draw.Always.mono (always_fillRow hlinked.below hs hlinked.links 0) fun row hrow => ?_
  obtain ⟨last, hrow⟩ := hrow
  refine ⟨last.chosen, hrow.below.chosen_lt hn, hrow.gives _ last.told_chosen, ?_⟩
  intro before table pool after hl hbefore
  obtain ⟨i, hi, hlt, hv⟩ := hlinked.first before table pool after hl hbefore (by simp)
  have hsample : feeds[before.length]? = some (.sample table pool) := by simp [hl]
  rw [last.told_chosen table i (hrow.extends_ table i hi), hv, hrow.keeps _ _ hsample rfl]

/-- Each row follows the ones before it. -/
def RowsFollow (options : Options) (n : Nat) (feeds : List Feed) (rows : List (List Value)) : Prop :=
  ∀ before row after, rows = before ++ row :: after →
    ∃ chosen, RowFollows options n feeds before chosen row

theorem RowsFollow.getElem {rows : List (List Value)} (h : RowsFollow options n feeds rows)
    (hi : i < rows.length) : ∃ chosen, RowFollows options n feeds (rows.take i) chosen rows[i] := by
  refine h (rows.take i) rows[i] (rows.drop (i + 1)) ?_
  rw [← List.drop_eq_getElem_cons, List.take_append_drop]

/-- A place in a list is its last, or before that. -/
theorem eq_or_before_of_concat {α : Type} {l before after : List α} {a last : α}
    (h : l ++ [last] = before ++ a :: after) :
    (l = before ∧ last = a) ∨ ∃ rest, l = before ++ a :: rest ∧ after = rest ++ [last] := by
  obtain rfl | ⟨rest, b, rfl⟩ := List.eq_nil_or_concat after
  · obtain ⟨hl, hlast⟩ := List.append_inj' h rfl
    exact .inl ⟨hl, List.singleton_inj.1 hlast⟩
  · rw [List.concat_eq_append, ← List.cons_append, ← List.append_assoc] at h
    obtain ⟨hl, hlast⟩ := List.append_inj' h rfl
    rw [List.singleton_inj.1 hlast, List.concat_eq_append]
    exact .inr ⟨rest, hl, rfl⟩

theorem RowsFollow.concat {rows : List (List Value)} {row : List Value} {chosen : String → Nat}
    (h : RowsFollow options n feeds rows) (hrow : RowFollows options n feeds rows chosen row) :
    RowsFollow options n feeds (rows ++ [row]) := by
  intro before row' after hl
  rcases eq_or_before_of_concat hl with ⟨rfl, rfl⟩ | ⟨rest, hl, -⟩
  · exact ⟨chosen, hrow⟩
  · exact h before row' rest hl

/-- Filling gives as many rows as asked, and each follows the ones before it. -/
theorem always_fillRows (hs : ∀ feed ∈ feeds, feed.Sized n) {count : Nat} (hcount : count ≤ n)
    (hrows : RowsFollow options n feeds rows.toList) :
    Draw.Always (fillRows options feeds count rows) fun result =>
      result.size = rows.size + count ∧ RowsFollow options n feeds result.toList := by
  induction count generalizing rows with
  | zero => exact Draw.Always.pure ⟨rfl, hrows⟩
  | succ count ih =>
    refine Draw.Always.bind (always_nextRow (by omega) hs) fun row hrow => ?_
    obtain ⟨chosen, hrow⟩ := hrow
    have hpush : RowsFollow options n feeds (rows.push row).toList := by
      rw [Array.toList_push]
      exact hrows.concat hrow
    refine Draw.Always.mono (ih (by omega) hpush) fun result hresult => ⟨?_, hresult.2⟩
    rw [hresult.1, Array.size_push]
    omega

end SeedData
