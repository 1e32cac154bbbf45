/-
Finite maps as lists of entries in strictly increasing key order. The order is
part of the type, so two maps with the same entries are the same map, and
listing one is listing it in key order.

`get?_insert`: a map holds what was last inserted under a key, and what it held
before under every other.
-/
namespace SeedData

/-- What keys need to be told apart by their order. -/
class KeyOrder (κ : Type) extends LT κ where
  lt_irrefl : ∀ a : κ, ¬ a < a
  lt_trans : ∀ {a b c : κ}, a < b → b < c → a < c
  lt_trichotomy : ∀ a b : κ, a < b ∨ a = b ∨ b < a

instance : KeyOrder String where
  lt_irrefl := String.lt_irrefl
  lt_trans := String.lt_trans
  lt_trichotomy a b := by
    by_cases h : a < b
    · exact .inl h
    · by_cases h' : b < a
      · exact .inr (.inr h')
      · exact .inr (.inl (String.le_antisymm (String.not_lt.1 h') (String.not_lt.1 h)))

instance (n : Nat) : KeyOrder (Fin n) where
  lt_irrefl a := Nat.lt_irrefl a
  lt_trans hab hbc := Nat.lt_trans hab hbc
  lt_trichotomy a b := by
    rcases Nat.lt_trichotomy a b with h | h | h
    · exact .inl h
    · exact .inr (.inl (Fin.ext h))
    · exact .inr (.inr h)

/-! ## Pairs -/

/-- The order of pairs: by the first, then by the second. -/
def PairLT {α β : Type} [LT α] [LT β] (a b : α × β) : Prop := a.1 < b.1 ∨ (a.1 = b.1 ∧ a.2 < b.2)

instance {α β : Type} [LT α] [LT β] [DecidableEq α] [DecidableLT α] [DecidableLT β] (a b : α × β) :
    Decidable (PairLT a b) :=
  inferInstanceAs (Decidable (a.1 < b.1 ∨ (a.1 = b.1 ∧ a.2 < b.2)))

namespace PairLT

variable {α β : Type} [KeyOrder α] [KeyOrder β]

theorem irrefl (a : α × β) : ¬ PairLT a a := by
  rintro (h | h)
  · exact KeyOrder.lt_irrefl _ h
  · exact KeyOrder.lt_irrefl _ h.2

theorem trans {a b c : α × β} (hab : PairLT a b) (hbc : PairLT b c) : PairLT a c := by
  rcases hab with h | ⟨h, h'⟩ <;> rcases hbc with k | ⟨k, k'⟩
  · exact .inl (KeyOrder.lt_trans h k)
  · exact .inl (k ▸ h)
  · exact .inl (h ▸ k)
  · exact .inr ⟨h.trans k, KeyOrder.lt_trans h' k'⟩

theorem trichotomy (a b : α × β) : PairLT a b ∨ a = b ∨ PairLT b a := by
  rcases KeyOrder.lt_trichotomy a.1 b.1 with h | h | h
  · exact .inl (.inl h)
  · rcases KeyOrder.lt_trichotomy a.2 b.2 with h' | h' | h'
    · exact .inl (.inr ⟨h, h'⟩)
    · exact .inr (.inl (Prod.ext h h'))
    · exact .inr (.inr (.inr ⟨h.symm, h'⟩))
  · exact .inr (.inr (.inl h))

end PairLT

/-! ## Maps -/

/-- A finite map: entries in strictly increasing key order. -/
structure SortedMap (κ : Type) (ν : Type) [KeyOrder κ] where
  entries : List (κ × ν)
  sorted : entries.Pairwise fun a b => a.1 < b.1

namespace SortedMap

variable {κ ν : Type} [KeyOrder κ]

@[ext] theorem ext {m n : SortedMap κ ν} (h : m.entries = n.entries) : m = n := by
  cases m; cases n; simp_all

instance [DecidableEq κ] [DecidableEq ν] : DecidableEq (SortedMap κ ν) := fun m n =>
  decidable_of_iff (m.entries = n.entries) ⟨ext, fun h => h ▸ rfl⟩

def empty : SortedMap κ ν := ⟨[], .nil⟩

instance : Inhabited (SortedMap κ ν) := ⟨empty⟩

variable [DecidableEq κ] [DecidableLT κ]

/-- Puts an entry at its key's place, over the entry that has the key. -/
def insertEntry (k : κ) (v : ν) : List (κ × ν) → List (κ × ν)
  | [] => [(k, v)]
  | (k', v') :: r =>
    if k < k' then (k, v) :: (k', v') :: r
    else if k = k' then (k, v) :: r
    else (k', v') :: insertEntry k v r

theorem mem_insertEntry {k : κ} {v : ν} {e : κ × ν} {l : List (κ × ν)} :
    e ∈ insertEntry k v l → e = (k, v) ∨ e ∈ l := by
  induction l with
  | nil => simp [insertEntry]
  | cons p r ih =>
    obtain ⟨k', v'⟩ := p
    simp only [insertEntry]
    split
    · simp
    · split
      · simp only [List.mem_cons]; rintro (h | h) <;> simp [h]
      · simp only [List.mem_cons]
        rintro (h | h)
        · simp [h]
        · rcases ih h with h | h <;> simp [h]

theorem sorted_insertEntry (k : κ) (v : ν) {l : List (κ × ν)}
    (h : l.Pairwise fun a b => a.1 < b.1) : (insertEntry k v l).Pairwise fun a b => a.1 < b.1 := by
  induction l with
  | nil => simp [insertEntry]
  | cons p r ih =>
    obtain ⟨k', v'⟩ := p
    rw [List.pairwise_cons] at h
    simp only [insertEntry]
    split
    · rename_i hlt
      refine List.pairwise_cons.2 ⟨?_, List.pairwise_cons.2 h⟩
      intro e he
      rcases List.mem_cons.1 he with rfl | he
      · exact hlt
      · exact KeyOrder.lt_trans hlt (h.1 e he)
    · rename_i hge
      split
      · rename_i heq
        subst heq
        exact List.pairwise_cons.2 h
      · rename_i hne
        refine List.pairwise_cons.2 ⟨?_, ih h.2⟩
        intro e he
        rcases mem_insertEntry he with rfl | he
        · exact ((KeyOrder.lt_trichotomy k k').resolve_left hge).resolve_left hne
        · exact h.1 e he

def insert (m : SortedMap κ ν) (k : κ) (v : ν) : SortedMap κ ν :=
  ⟨insertEntry k v m.entries, sorted_insertEntry k v m.sorted⟩

def erase (m : SortedMap κ ν) (k : κ) : SortedMap κ ν :=
  ⟨m.entries.filter (·.1 ≠ k), m.sorted.filter _⟩

omit [DecidableEq κ] [DecidableLT κ] in
/-- The map of the entries that satisfy `p`. -/
def filter (m : SortedMap κ ν) (p : κ × ν → Bool) : SortedMap κ ν :=
  ⟨m.entries.filter p, m.sorted.filter _⟩

def get? (m : SortedMap κ ν) (k : κ) : Option ν :=
  (m.entries.find? fun e => decide (e.1 = k)).map (·.2)

def contains (m : SortedMap κ ν) (k : κ) : Bool := (m.get? k).isSome

/-- The map of the entries of a list, a later entry over an earlier one with its
key. -/
def ofList (l : List (κ × ν)) : SortedMap κ ν := l.foldl (fun m e => m.insert e.1 e.2) empty

omit [DecidableEq κ] [DecidableLT κ] in
/-- The keys of a map, in increasing order. -/
def keys (m : SortedMap κ ν) : List κ := m.entries.map (·.1)

def size (m : SortedMap κ ν) : Nat := m.entries.length

def isEmpty (m : SortedMap κ ν) : Bool := m.entries.isEmpty

/-! ## What insertion changes -/

theorem find?_insertEntry_self (k : κ) (v : ν) (l : List (κ × ν)) :
    ((insertEntry k v l).find? fun e => decide (e.1 = k)).map (·.2) = some v := by
  induction l with
  | nil => simp [insertEntry]
  | cons p r ih =>
    obtain ⟨k', v'⟩ := p
    simp only [insertEntry]
    split
    · simp
    · split
      · simp
      · rename_i hne
        have : ¬ k' = k := fun h => hne h.symm
        simpa [List.find?_cons, this] using ih

theorem find?_insertEntry_other {k k' : κ} (v : ν) (hne : k' ≠ k) (l : List (κ × ν)) :
    (insertEntry k v l).find? (fun e => decide (e.1 = k'))
      = l.find? (fun e => decide (e.1 = k')) := by
  induction l with
  | nil => simp [insertEntry, Ne.symm hne]
  | cons p r ih =>
    obtain ⟨k'', v''⟩ := p
    simp only [insertEntry]
    split
    · simp [List.find?_cons, Ne.symm hne]
    · split
      · rename_i heq
        subst heq
        simp [Ne.symm hne]
      · by_cases h : k'' = k' <;> simp [h, ih]

@[simp] theorem get?_insert_self (m : SortedMap κ ν) (k : κ) (v : ν) :
    (m.insert k v).get? k = some v := find?_insertEntry_self k v m.entries

theorem get?_insert_other (m : SortedMap κ ν) {k k' : κ} (v : ν) (hne : k' ≠ k) :
    (m.insert k v).get? k' = m.get? k' := by
  simp only [get?, insert, find?_insertEntry_other v hne]

theorem get?_insert (m : SortedMap κ ν) (k k' : κ) (v : ν) :
    (m.insert k v).get? k' = if k' = k then some v else m.get? k' := by
  split
  · rename_i h; subst h; exact get?_insert_self m k' v
  · rename_i h; exact get?_insert_other m v h

omit [DecidableLT κ] in
@[simp] theorem get?_empty (k : κ) : (empty : SortedMap κ ν).get? k = none := rfl

/-! ## Entries -/

omit [DecidableEq κ] [DecidableLT κ] in
theorem pairwise_keys (m : SortedMap κ ν) : m.keys.Pairwise (· < ·) := List.pairwise_map.2 m.sorted

omit [DecidableEq κ] [DecidableLT κ] in
theorem nodup_keys (m : SortedMap κ ν) : m.keys.Nodup := by
  refine (pairwise_keys m).imp ?_
  intro a b h he
  exact KeyOrder.lt_irrefl _ (he ▸ h)

omit [DecidableLT κ] in
/-- A map holds what its entries say. -/
theorem get?_eq_some_iff {m : SortedMap κ ν} {k : κ} {v : ν} :
    m.get? k = some v ↔ (k, v) ∈ m.entries := by
  obtain ⟨l, hl⟩ := m
  simp only [get?]
  induction l with
  | nil => simp
  | cons p r ih =>
    obtain ⟨k', v'⟩ := p
    rw [List.pairwise_cons] at hl
    by_cases hk : k' = k
    · subst hk
      have hr : ∀ w, (k', w) ∉ r := fun w h => KeyOrder.lt_irrefl k' (hl.1 (k', w) h)
      simp [hr, eq_comm]
    · have hne : ¬ k = k' := fun h => hk h.symm
      simp [hk, hne, ih hl.2]

omit [DecidableLT κ] in
theorem contains_iff {m : SortedMap κ ν} {k : κ} :
    m.contains k = true ↔ ∃ v, (k, v) ∈ m.entries := by
  simp only [contains, Option.isSome_iff_exists, get?_eq_some_iff]

/-- Values inserted by key: each key of the list holds its own. -/
theorem get?_foldl_insert (f : κ → ν) (l : List κ) (m : SortedMap κ ν) (k : κ) :
    (l.foldl (fun m a => m.insert a (f a)) m).get? k = if k ∈ l then some (f k) else m.get? k := by
  induction l generalizing m with
  | nil => simp
  | cons a l ih =>
    rw [List.foldl_cons, ih, get?_insert]
    by_cases hl : k ∈ l
    · simp [hl]
    · by_cases ha : k = a
      · subst ha; simp
      · simp [hl, ha]

/-- A list whose entries all agree with `f` makes a map that agrees with it. -/
theorem get?_ofList {f : κ → Option ν} {l : List (κ × ν)} (h : ∀ e ∈ l, f e.1 = some e.2) (k : κ) :
    (ofList l).get? k = if k ∈ l.map (·.1) then f k else none := by
  suffices hfold : ∀ m : SortedMap κ ν, (l.foldl (fun m e => m.insert e.1 e.2) m).get? k =
      if k ∈ l.map (·.1) then f k else m.get? k from by simpa [ofList] using hfold empty
  induction l with
  | nil => simp
  | cons e l ih =>
    intro m
    rw [List.forall_mem_cons] at h
    rw [List.foldl_cons, ih h.2, get?_insert, List.map_cons]
    by_cases hl : k ∈ l.map (·.1)
    · rw [if_pos hl, if_pos (List.mem_cons_of_mem e.1 hl)]
    by_cases hk : k = e.1
    · rw [if_neg hl, if_pos hk, if_pos (hk ▸ List.mem_cons_self), hk, h.1]
    · rw [if_neg hl, if_neg hk, if_neg (by simp [hk, hl])]

omit [DecidableLT κ] in
theorem get?_erase (m : SortedMap κ ν) (k k' : κ) :
    (m.erase k).get? k' = if k' = k then none else m.get? k' := by
  simp only [get?, erase, List.find?_filter]
  split
  · rename_i h
    subst h
    simp
  · rename_i h
    have : (fun e : κ × ν => decide (decide (e.1 ≠ k) = true ∧ decide (e.1 = k') = true))
        = fun e => decide (e.1 = k') := by
      funext e
      by_cases he : e.1 = k' <;> simp [he, h]
    simp only [this]

/-! ## Sizes -/

theorem length_insertEntry_le (k : κ) (v : ν) (l : List (κ × ν)) :
    (insertEntry k v l).length ≤ l.length + 1 := by
  induction l with
  | nil => simp [insertEntry]
  | cons p r ih =>
    simp only [insertEntry]
    split
    · simp
    · split <;> simp [ih]

/-- One more entry makes a map larger by one at most. -/
theorem size_insert_le (m : SortedMap κ ν) (k : κ) (v : ν) : (m.insert k v).size ≤ m.size + 1 :=
  length_insertEntry_le k v m.entries

/-- Another value under a key that a map has does not make it larger. -/
theorem size_insert_of_contains {m : SortedMap κ ν} {k : κ} (v : ν) (h : m.contains k = true) :
    (m.insert k v).size = m.size := by
  obtain ⟨w, hw⟩ := contains_iff.1 h
  obtain ⟨l, hl⟩ := m
  simp only [insert, size] at hw ⊢
  induction l with
  | nil => simp at hw
  | cons p r ih =>
    obtain ⟨k', v'⟩ := p
    rw [List.pairwise_cons] at hl
    simp only [insertEntry]
    rcases List.mem_cons.1 hw with heq | hr
    · simp only [Prod.mk.injEq] at heq
      simp [heq.1, KeyOrder.lt_irrefl]
    · have hlt := hl.1 _ hr
      have hnlt : ¬ k < k' := fun h' => KeyOrder.lt_irrefl _ (KeyOrder.lt_trans h' hlt)
      have hne : ¬ k = k' := fun h' => KeyOrder.lt_irrefl _ (h' ▸ hlt)
      simpa [hnlt, hne] using ih hl.2 (contains_iff.2 ⟨w, hr⟩) hr

omit [DecidableLT κ] in
/-- A map without one of its keys is smaller. -/
theorem size_erase_lt {m : SortedMap κ ν} {k : κ} (h : m.contains k = true) :
    (m.erase k).size < m.size := by
  obtain ⟨v, hv⟩ := contains_iff.1 h
  exact List.length_filter_lt_length_iff_exists.2 ⟨(k, v), hv, by simp⟩

end SortedMap

/-! ## Sets -/

/-- A finite set, listed in increasing order: a map that holds nothing. -/
abbrev SortedSet (κ : Type) [KeyOrder κ] := SortedMap κ Unit

namespace SortedSet

variable {κ : Type} [KeyOrder κ]

def toList (s : SortedSet κ) : List κ := s.keys

/-- The first member and the set of the others. -/
def popFirst? : SortedSet κ → Option (κ × SortedSet κ)
  | ⟨[], _⟩ => none
  | ⟨(k, _) :: r, h⟩ => some (k, ⟨r, (List.pairwise_cons.1 h).2⟩)

theorem pairwise_toList (s : SortedSet κ) : (toList s).Pairwise (· < ·) := s.pairwise_keys

theorem nodup_toList (s : SortedSet κ) : (toList s).Nodup := s.nodup_keys

@[simp] theorem length_toList (s : SortedSet κ) : (toList s).length = s.size := by
  simp [toList, SortedMap.keys, SortedMap.size]

@[simp] theorem toList_empty : toList (SortedMap.empty : SortedSet κ) = [] := rfl

theorem popFirst?_eq_none_iff {s : SortedSet κ} : popFirst? s = none ↔ toList s = [] := by
  obtain ⟨_ | ⟨p, l⟩, h⟩ := s <;> simp [popFirst?, toList, SortedMap.keys]

theorem toList_of_popFirst? {s r : SortedSet κ} {k : κ} (h : popFirst? s = some (k, r)) :
    toList s = k :: toList r := by
  obtain ⟨_ | ⟨p, l⟩, hl⟩ := s
  · simp [popFirst?] at h
  · simp only [popFirst?, Option.some.injEq, Prod.mk.injEq] at h
    obtain ⟨rfl, rfl⟩ := h
    rfl

/-- The first member comes before all others. -/
theorem lt_of_popFirst? {s r : SortedSet κ} {k a : κ} (h : popFirst? s = some (k, r))
    (ha : a ∈ toList r) : k < a := by
  have hs := pairwise_toList s
  rw [toList_of_popFirst? h, List.pairwise_cons] at hs
  exact hs.1 a ha

variable [DecidableEq κ] [DecidableLT κ]

def add (s : SortedSet κ) (k : κ) : SortedSet κ := s.insert k ()

/-- The set of the members of a list. -/
def ofList (l : List κ) : SortedSet κ := l.foldl add SortedMap.empty

omit [DecidableLT κ] in
@[simp] theorem contains_iff {s : SortedSet κ} {k : κ} : s.contains k = true ↔ k ∈ toList s := by
  simp [SortedMap.contains_iff, toList, SortedMap.keys]

omit [DecidableLT κ] in
@[simp] theorem mem_toList_erase {s : SortedSet κ} {k a : κ} :
    a ∈ toList (s.erase k) ↔ a ≠ k ∧ a ∈ toList s := by
  simp only [← contains_iff, SortedMap.contains, SortedMap.get?_erase]
  split <;> simp_all

@[simp] theorem mem_toList_add {s : SortedSet κ} {k a : κ} :
    a ∈ toList (add s k) ↔ a = k ∨ a ∈ toList s := by
  simp only [← contains_iff, add, SortedMap.contains, SortedMap.get?_insert]
  split <;> simp_all

theorem mem_toList_foldl_add {l : List κ} {s : SortedSet κ} {a : κ} :
    a ∈ toList (l.foldl add s) ↔ a ∈ l ∨ a ∈ toList s := by
  induction l generalizing s with
  | nil => simp
  | cons k l ih =>
    simp only [List.foldl_cons, ih, mem_toList_add, List.mem_cons, or_left_comm, or_assoc]

@[simp] theorem mem_toList_ofList {l : List κ} {a : κ} : a ∈ toList (ofList l) ↔ a ∈ l := by
  simp [ofList, mem_toList_foldl_add]

end SortedSet
end SeedData
