/-
Columns whose type is written like the name of an enumerated type. The name is kept as it is written, but a
type is put in lower case by the rules of Unicode, ends at a parenthesis, loses the array marks at its end and
has single spaces; then the two are compared up to the letters of ASCII. They meet exactly where reading a
type changes no more than these letters (`IsTypeName`, `sameLetters_base_iff`), and elsewhere the column has
the labels of another enumerated type or none (`resolve_enum_name`).
-/
import Mathlib.Data.List.TakeWhile
import SeedData.Proofs.LowerCase
import SeedData.Proofs.TypedCells

namespace SeedData

namespace Text

variable {p : Char → Bool} {f : Char → Char} {c m : Char} {s w : List Char} {pieces : List (List Char)}

/-! ## Single spaces -/

theorem splitOn_map (h : ∀ c, p (f c) = p c) (s : List Char) :
    splitOn p (s.map f) = (splitOn p s).map (List.map f) := by
  induction s with
  | nil => rfl
  | cons c s ih =>
    rw [List.map_cons, splitOn, splitOn, h, ih]
    split
    · rfl
    · cases splitOn p s <;> rfl

theorem mem_of_mem_splitOn (hw : w ∈ splitOn p s) (hc : c ∈ w) : c ∈ s := by
  induction s generalizing w with
  | nil => simp_all [splitOn]
  | cons d s ih =>
    rw [splitOn] at hw
    split at hw
    · rcases List.mem_cons.1 hw with rfl | hw
      · cases hc
      · exact List.mem_cons_of_mem d (ih hw hc)
    · cases hs : splitOn p s with
      | nil => exact absurd hs (splitOn_ne_nil p s)
      | cons v vs =>
        rw [hs] at hw ih
        rcases List.mem_cons.1 hw with rfl | hw
        · rcases List.mem_cons.1 hc with rfl | hc
          · exact List.mem_cons_self
          · exact List.mem_cons_of_mem d (ih List.mem_cons_self hc)
        · exact List.mem_cons_of_mem d (ih (List.mem_cons_of_mem v hw) hc)

theorem join_map (f : Char → Char) (m : Char) (pieces : List (List Char)) :
    join [f m] (pieces.map (List.map f)) = (join [m] pieces).map f := by
  induction pieces with
  | nil => rfl
  | cons w ws ih =>
    cases ws with
    | nil => simp [join]
    | cons v ws => simpa [join, List.intercalate_cons_cons] using ih

theorem mem_join (h : c ∈ join [m] pieces) : c = m ∨ ∃ w ∈ pieces, c ∈ w := by
  induction pieces with
  | nil => cases h
  | cons w ws ih =>
    cases ws with
    | nil => exact .inr ⟨w, List.mem_cons_self, by simpa [join] using h⟩
    | cons v ws =>
      rw [join, List.intercalate_cons_cons, List.mem_append, List.mem_append, List.mem_singleton] at h
      rcases h with (h | h) | h
      · exact .inr ⟨w, List.mem_cons_self, h⟩
      · exact .inl h
      · refine (ih h).imp_right ?_
        rintro ⟨u, hu, hc⟩
        exact ⟨u, List.mem_cons_of_mem w hu, hc⟩

/-- Joined again, the pieces of a text are the text with one mark in each place it was split at. -/
theorem join_splitOn (p : Char → Bool) (m : Char) (s : List Char) :
    join [m] (splitOn p s) = s.map fun c => if p c then m else c := by
  induction s with
  | nil => rfl
  | cons c s ih =>
    rw [splitOn, List.map_cons, ← ih]
    cases hs : splitOn p s with
    | nil => exact absurd hs (splitOn_ne_nil p s)
    | cons w ws =>
      split
      · simp [join, List.intercalate_cons_cons]
      · cases ws <;> simp [join, List.intercalate_cons_cons]

/-- Without its empty pieces a text is shorter, if there are any between others. -/
theorem join_filter_cases (m : Char) (pieces : List (List Char)) :
    join [m] (pieces.filter (· ≠ [])) = join [m] pieces ∨
      (join [m] (pieces.filter (· ≠ []))).length < (join [m] pieces).length := by
  induction pieces with
  | nil => exact .inl rfl
  | cons w ws ih =>
    cases ws with
    | nil => cases w <;> simp [join]
    | cons v ws =>
      have hjoin : join [m] (w :: v :: ws) = w ++ m :: join [m] (v :: ws) := by
        simp [join, List.intercalate_cons_cons]
      have hle : (join [m] ((v :: ws).filter (· ≠ []))).length ≤ (join [m] (v :: ws)).length := by
        rcases ih with h | h
        · rw [h]
        · exact Nat.le_of_lt h
      rw [hjoin, List.length_append, List.length_cons]
      cases w with
      | nil =>
        right
        rw [List.filter_cons_of_neg (by simp)]
        simp only [List.length_nil]
        omega
      | cons c w =>
        rw [List.filter_cons_of_pos (by simp)]
        cases hrest : (v :: ws).filter (· ≠ []) with
        | nil =>
          right
          simp [join]
        | cons u us =>
          rw [hrest] at ih hle
          have hkept : join [m] ((c :: w) :: u :: us) = (c :: w) ++ m :: join [m] (u :: us) := by
            simp [join, List.intercalate_cons_cons]
          rw [hkept]
          refine ih.imp (fun h => by rw [h]) fun h => ?_
          simp only [List.length_append, List.length_cons]
          omega

/-- Collapsing makes each blank a space, or the text shorter. -/
theorem collapse_cases (s : List Char) :
    collapse s = s.map (fun c => if isBlank c then ' ' else c) ∨ (collapse s).length < s.length := by
  have hlength := congrArg List.length (join_splitOn isBlank ' ' s)
  rw [List.length_map] at hlength
  rw [collapse, words, ← join_splitOn isBlank ' ' s, ← hlength]
  exact join_filter_cases ' ' _

theorem length_collapse_le (s : List Char) : (collapse s).length ≤ s.length := by
  rcases collapse_cases s with h | h
  · rw [h, List.length_map]
  · exact Nat.le_of_lt h

theorem words_trimLeft (s : List Char) : words (trimLeft s) = words s := by
  induction s with
  | nil => rfl
  | cons c s ih =>
    by_cases hc : isBlank c = true
    · rw [trimLeft, List.dropWhile_cons_of_pos hc, ← trimLeft, ih, words, words, splitOn, if_pos hc]
      rfl
    · rw [trimLeft, List.dropWhile_cons_of_neg hc]

theorem words_trimRight (s : List Char) : words (trimRight s) = words s := by
  induction s using List.reverseRecOn with
  | nil => rfl
  | append_singleton s c ih =>
    by_cases hc : isBlank c = true
    · have hlast : words (s ++ [c]) = words s := by
        rw [words, words, splitOn_at hc, List.filter_append]
        exact List.append_nil _
      rw [trimRight_concat_blank hc, ih, hlast]
    · have hkept := trimRight_append_cons (Bool.eq_false_iff.2 hc) s []
      rw [hkept]
      rfl

theorem collapse_trim (s : List Char) : collapse (trim s) = collapse s := by
  rw [collapse, trim, words_trimRight, words_trimLeft, collapse]

theorem trim_sublist (s : List Char) : (trim s).Sublist s := by
  refine List.Sublist.trans ?_ (List.dropWhile_sublist isBlank)
  exact List.reverse_sublist.1 (by simpa [trim, trimRight, trimLeft] using List.dropWhile_sublist _)

theorem trim_of_collapse (h : collapse s = s) : trim s = s := by
  have hle := length_collapse_le (trim s)
  rw [collapse_trim, h] at hle
  exact (trim_sublist s).eq_of_length_le hle

theorem collapse_toLower (s : List Char) : collapse (s.map Char.toLower) = (collapse s).map Char.toLower := by
  have hspace : ' '.toLower = ' ' := rfl
  have hempty : ∀ w : List Char, decide (w.map Char.toLower ≠ []) = decide (w ≠ []) := by simp
  rw [collapse, collapse, ← join_map, hspace, words, words, splitOn_map isBlank_toLower, List.filter_map]
  simp only [Function.comp_def, hempty]

/-- Spaces are single ones in the small letters of a text if they are in the text. -/
theorem collapse_toLower_iff : collapse (s.map Char.toLower) = s.map Char.toLower ↔ collapse s = s := by
  rw [collapse_toLower]
  constructor
  · intro h
    have hlength := congrArg List.length h
    rw [List.length_map, List.length_map] at hlength
    have hspaces := (collapse_cases s).resolve_right (by omega)
    rw [hspaces] at h ⊢
    rw [List.map_map, List.map_inj_left] at h
    refine (List.map_congr_left fun c hc => ?_).trans (List.map_id' s)
    have hsame := h c hc
    by_cases hblank : isBlank c = true
    · simpa [hblank, toLower_of_isBlank hblank] using hsame
    · simp [hblank]
  · intro h
    rw [h]

end Text

/-! ## Names -/

theorem sameLetters_comm (x y : String) : sameLetters x y = sameLetters y x := Bool.beq_comm

theorem sameLetters_trans {x y z : String} (hxy : sameLetters x y = true) (hyz : sameLetters y z = true) :
    sameLetters x z = true := by
  rw [sameLetters, beq_iff_eq] at hxy hyz ⊢
  exact hxy.trans hyz

namespace Family

/-- Whether the name is that of a family, in any case. -/
def isKnown (name : String) : Bool := names.any fun entry => entry.2.any (sameLetters name)

theorem isKnown_of_ofName? {name base : String} {family : Family} (h : ofName? base = some family)
    (hsame : sameLetters name base = true) : isKnown name = true := by
  obtain ⟨entry, hentry, -⟩ := Option.map_eq_some_iff.1 h
  have hbase : base ∈ entry.2 := by simpa using List.find?_some hentry
  exact List.any_eq_true.2 ⟨entry, List.mem_of_find?_eq_some hentry, List.any_eq_true.2 ⟨base, hbase, hsame⟩⟩

end Family

namespace Catalog

theorem sameLetters_of_enum? {catalog : Catalog} {e : EnumType} {name : String} (h : catalog.enum? name = some e) :
    sameLetters e.name name = true := by
  rw [enum?] at h
  simpa using List.find?_some h

/-- The enumerated type of a name is the one that is called so, if no other is. -/
theorem enum?_eq_some {catalog : Catalog} {e : EnumType} {base : String} (he : e ∈ catalog.enums)
    (hothers : ∀ other ∈ catalog.enums, other ≠ e → sameLetters other.name e.name = false)
    (hsame : sameLetters e.name base = true) : catalog.enum? base = some e := by
  cases hfind : catalog.enum? base with
  | none => exact absurd hsame (List.find?_eq_none.1 hfind e he)
  | some other =>
    have hletters := sameLetters_trans (sameLetters_of_enum? hfind) ((sameLetters_comm base e.name).trans hsame)
    have heq : other = e := by
      by_contra hne
      rw [hothers other (List.mem_of_find?_eq_some hfind) hne] at hletters
      cases hletters
    rw [heq]

end Catalog

namespace ColumnType

variable {name s : List Char}

/-! ## Names as types -/

theorem isPrefix_dropArrayMarks (s : List Char) : dropArrayMarks s <+: s := by
  have hsuffix : ∀ t, dropArrayMarks.drop t <:+ t := by
    intro t
    fun_induction dropArrayMarks.drop t with
    | case1 r ih => exact ih.trans ⟨[']', '['], rfl⟩
    | case2 t => exact List.suffix_refl t
  rw [dropArrayMarks, ← List.reverse_suffix, List.reverse_reverse]
  exact hsuffix s.reverse

theorem dropArrayMarks_eq_self_iff : dropArrayMarks s = s ↔ ¬ ['[', ']'] <:+ s := by
  constructor
  · rintro hsame ⟨x, rfl⟩
    have hprefix := isPrefix_dropArrayMarks x
    have hdrop : dropArrayMarks (x ++ ['[', ']']) = dropArrayMarks x := by
      rw [dropArrayMarks, List.reverse_append]
      rfl
    rw [hdrop] at hsame
    have hlength := hprefix.length_le
    rw [hsame, List.length_append] at hlength
    exact absurd hlength (by simp)
  · intro hnot
    have hdrop : ∀ t, ¬ [']', '['] <+: t → dropArrayMarks.drop t = t := by
      intro t ht
      fun_cases dropArrayMarks.drop t with
      | case1 r => exact absurd ⟨r, rfl⟩ ht
      | case2 t => rfl
    rw [dropArrayMarks, hdrop _ ?_, List.reverse_reverse]
    rwa [← List.reverse_suffix, List.reverse_reverse]

theorem parts_fst (s : List Char) :
    (parts s).1 = Text.collapse (dropArrayMarks (Text.trim (s.takeWhile (· ≠ '(')))) := by
  simp only [parts, List.span_eq_takeWhile_dropWhile]

/-- A type that is written like the name is read as the name, up to the letters of ASCII. -/
structure IsTypeName (name : List Char) : Prop where
  low : ∀ c ∈ name, 0x80 ≤ c.toNat → Text.IsLow c
  bare : '(' ∉ name
  single : ¬ ['[', ']'] <:+ name
  spaced : Text.collapse name = name

theorem isLow_of_mem_parts {c : Char} (hc : c ∈ (parts (Text.lowercase s)).1) : Text.IsLow c := by
  rw [parts_fst] at hc
  rcases Text.mem_join hc with rfl | ⟨w, hw, hcw⟩
  · decide +kernel
  · have hmem := Text.mem_of_mem_trim
      ((isPrefix_dropArrayMarks _).subset (Text.mem_of_mem_splitOn (List.mem_of_mem_filter hw) hcw))
    exact Text.isLow_of_mem_lowercase ((List.takeWhile_prefix _).subset hmem)

theorem length_parts_le (s : List Char) : (parts s).1.length ≤ (s.takeWhile (· ≠ '(')).length := by
  rw [parts_fst]
  exact Nat.le_trans (Text.length_collapse_le _)
    (Nat.le_trans (isPrefix_dropArrayMarks _).length_le (Text.trim_length_le _))

theorem mem_paren_toLower_iff : '(' ∈ s.map Char.toLower ↔ '(' ∈ s := by
  rw [List.mem_map]
  constructor
  · rintro ⟨c, hc, hparen⟩
    rwa [← (Text.toLower_eq_iff (by decide) rfl).1 hparen]
  · exact fun h => ⟨'(', h, rfl⟩

theorem mark_suffix_toLower_iff : ['[', ']'] <:+ s.map Char.toLower ↔ ['[', ']'] <:+ s := by
  constructor
  · rintro ⟨x, hx⟩
    obtain ⟨front, back, rfl, -, hback⟩ := List.map_eq_append_iff.1 hx.symm
    obtain ⟨c, rest, rfl, hc, hrest⟩ := List.map_eq_cons_iff.1 hback
    obtain ⟨d, rest, rfl, hd, hnil⟩ := List.map_eq_cons_iff.1 hrest
    rw [(Text.toLower_eq_iff (by decide) rfl).1 hc, (Text.toLower_eq_iff (by decide) rfl).1 hd,
      List.map_eq_nil_iff.1 hnil]
    exact List.suffix_append front _
  · exact fun h => h.map Char.toLower

theorem takeWhile_paren_iff : s.takeWhile (· ≠ '(') = s ↔ '(' ∉ s := by
  rw [List.takeWhile_eq_self_iff]
  constructor
  · exact fun h hmem => by simpa using h '(' hmem
  · rintro h c hc
    exact decide_eq_true fun he => h (he ▸ hc)

/-- The texts that are read as names of types just as they stand. No step of the reading makes a text longer,
so each of them leaves such a text as it is. -/
theorem parts_eq_self_iff : (parts s).1 = s ↔ '(' ∉ s ∧ ¬ ['[', ']'] <:+ s ∧ Text.collapse s = s := by
  constructor
  · intro h
    have htaken := length_parts_le s
    rw [h] at htaken
    have hbare := (List.takeWhile_prefix (l := s) (· ≠ '(')).eq_of_length_le htaken
    rw [parts_fst, hbare] at h
    have hkept := Text.length_collapse_le (dropArrayMarks (Text.trim s))
    rw [h] at hkept
    have hprefix := isPrefix_dropArrayMarks (Text.trim s)
    have htrim := (Text.trim_sublist s).eq_of_length_le (Nat.le_trans hkept hprefix.length_le)
    rw [htrim] at h hkept hprefix
    have hmarks := hprefix.eq_of_length_le hkept
    rw [hmarks] at h
    exact ⟨takeWhile_paren_iff.1 hbare, dropArrayMarks_eq_self_iff.1 hmarks, h⟩
  · rintro ⟨hbare, hsingle, hspaced⟩
    rw [parts_fst, takeWhile_paren_iff.2 hbare, Text.trim_of_collapse hspaced,
      dropArrayMarks_eq_self_iff.2 hsingle, hspaced]

theorem parts_toLower_iff : (parts (s.map Char.toLower)).1 = s.map Char.toLower ↔
    '(' ∉ s ∧ ¬ ['[', ']'] <:+ s ∧ Text.collapse s = s := by
  rw [parts_eq_self_iff, mem_paren_toLower_iff, mark_suffix_toLower_iff, Text.collapse_toLower_iff]

/-- The name that is read off a type is what is written, up to the letters of ASCII, if that is such a name. -/
theorem parts_eq_iff (name : List Char) :
    (parts (Text.lowercase (Text.trim name))).1 = name.map Char.toLower ↔ IsTypeName name := by
  constructor
  · intro h
    have hlow : ∀ c ∈ name, 0x80 ≤ c.toNat → Text.IsLow c := by
      intro c hc hbeyond
      refine isLow_of_mem_parts (s := Text.trim name) ?_
      rw [h, ← Text.toLower_of_not_ascii hbeyond]
      exact List.mem_map_of_mem hc
    rw [Text.lowercase_eq_map fun c hc => hlow c (Text.mem_of_mem_trim hc)] at h
    have hlength := Nat.le_trans (length_parts_le ((Text.trim name).map Char.toLower))
      (List.takeWhile_prefix _).length_le
    rw [h, List.length_map, List.length_map] at hlength
    rw [(Text.trim_sublist name).eq_of_length_le hlength] at h
    obtain ⟨hbare, hsingle, hspaced⟩ := parts_toLower_iff.1 h
    exact ⟨hlow, hbare, hsingle, hspaced⟩
  · intro h
    rw [Text.trim_of_collapse h.spaced, Text.lowercase_eq_map h.low]
    exact parts_toLower_iff.2 ⟨h.bare, h.single, h.spaced⟩

theorem sameLetters_base_iff (catalog : Catalog) (name : String) :
    sameLetters name (resolve catalog name).base = true ↔ IsTypeName name.toList := by
  have hlow : (resolve catalog name).base.toList.map Char.toLower = (resolve catalog name).base.toList := by
    refine (List.map_congr_left fun c hc => Text.toLower_of_low ?_).trans (List.map_id' _)
    rw [resolve, String.toList_ofList] at hc
    exact isLow_of_mem_parts hc
  rw [sameLetters, beq_iff_eq, hlow, resolve, String.toList_ofList, eq_comm, parts_eq_iff]

/-! ## Types that spell an enumerated type -/

/-- **A type that is written like an enumerated type is that type, if the name stays as it is when it is
read.** For a name that is no name of a family and that no other enumerated type has, up to the letters of
ASCII, the column takes its values from the labels; a name that is read as another one is not found, and the
column has the labels of another enumerated type or none. -/
theorem resolve_enum_name {catalog : Catalog} {e : EnumType} (he : e ∈ catalog.enums) (hlabels : e.labels ≠ [])
    (hknown : Family.isKnown e.name = false)
    (hothers : ∀ other ∈ catalog.enums, other ≠ e → sameLetters other.name e.name = false) :
    (IsTypeName e.name.toList → (resolve catalog e.name).family = .enumerated e.labels) ∧
      (¬ IsTypeName e.name.toList → ∀ labels, (resolve catalog e.name).family = .enumerated labels →
        ∃ other ∈ catalog.enums, other ≠ e ∧ other.labels = labels) := by
  constructor
  · intro hname
    have hsame := (sameLetters_base_iff catalog e.name).2 hname
    have hnone : Family.ofName? (resolve catalog e.name).base = none := by
      refine Option.eq_none_iff_forall_ne_some.2 fun family hfamily => ?_
      rw [Family.isKnown_of_ofName? hfamily hsame] at hknown
      cases hknown
    rw [family_resolve, Family.ofBase, hnone, Option.getD_none, Family.ofEnum, Catalog.enum?_eq_some he hothers hsame]
    exact if_neg (by simpa using hlabels)
  · intro hname labels hfamily
    obtain ⟨other, hfind, hsame, -⟩ := labels_of_resolve hfamily
    refine ⟨other, List.mem_of_find?_eq_some hfind, ?_, hsame⟩
    rintro rfl
    exact hname ((sameLetters_base_iff _ _).1 (Catalog.sameLetters_of_enum? hfind))

/-- Two enumerated types: what shoes can be like, and what people can be like. -/
def moods : Catalog := ⟨[], [⟨"Schuh größe", ["S", "M"]⟩, ⟨"Ärger", ["laut"]⟩]⟩

theorem shoe_sizes_have_labels : (resolve moods "Schuh größe").family = .enumerated ["S", "M"] := by
  have hlow : ∀ c ∈ "Schuh größe".toList, 0x80 ≤ c.toNat → Text.IsLow c :=
    List.all_iff_forall_prop.1 (by decide +kernel)
  have hname : IsTypeName "Schuh größe".toList := ⟨hlow, by decide, by decide, by decide +kernel⟩
  have he : ⟨"Schuh größe", ["S", "M"]⟩ ∈ moods.enums := List.mem_cons_self
  exact (resolve_enum_name he (by decide) (by decide +kernel) (by decide +kernel)).1 hname

/-- A name with a capital letter beyond ASCII is read in lower case, and the enumerated type is not found. -/
theorem capital_umlaut_is_text :
    ⟨"Ärger", ["laut"]⟩ ∈ moods.enums ∧ Family.isKnown "Ärger" = false ∧
      (∀ other ∈ moods.enums, other ≠ ⟨"Ärger", ["laut"]⟩ → sameLetters other.name "Ärger" = false) ∧
      (resolve moods "Ärger").family = .text := by
  decide +kernel

end ColumnType
end SeedData
