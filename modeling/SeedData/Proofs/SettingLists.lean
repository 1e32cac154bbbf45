/-
Two ways to split a list of settings. A column's line is split at the commas outside quotations, a text that
is read as settings on its own at every comma. Where every comma is outside quotations these are the same
pieces (`splitOutside_eq_splitOn`), and elsewhere the settings differ: one of the line has a comma in the
text it carries, and no setting of the other can have one (`settings_lists_agree_iff`).
-/
import SeedData.Proofs.EndpointText
import SeedData.Proofs.SettingTokens

namespace SeedData

namespace Text

variable {p : Char → Bool} {quote : Option Char} {c : Char} {s w : List Char} {pieces : List (List Char)}

/-! ## Pieces -/

/-- A text that is cut at all its marks is cut at those outside quotations if all are. -/
theorem splitOutside_eq_splitOn (h : (outside quote s).countP p = s.countP p) :
    splitOutside p quote s = splitOn p s := by
  induction s generalizing quote with
  | nil => rfl
  | cons c s ih =>
    have hfew := (outside_sublist (quoteAfter quote c) s).countP_le (p := p)
    rw [outside, List.countP_cons] at h
    rw [splitOutside, splitOn]
    by_cases hout : isOutside quote c
    · rw [if_pos hout, List.countP_cons, Nat.add_right_cancel_iff] at h
      rw [hout, Bool.true_and, ih h]
      by_cases hcut : p c
      · have hafter : quoteAfter quote c = none := by
          rw [isOutside, Bool.and_eq_true, Option.isNone_iff_eq_none] at hout
          simpa [hout.1, quoteAfter] using hout.2
        rw [if_pos hcut, if_pos hcut, ← ih h, hafter]
      · exact (if_neg hcut).trans (if_neg hcut).symm
    · rw [if_neg hout] at h
      rw [Bool.not_eq_true] at hout
      have hcut : ¬ p c := fun hcut => by
        rw [if_pos hcut] at h
        omega
      rw [if_neg hcut] at h
      rw [hout, Bool.false_and, if_neg Bool.false_ne_true, ih h]
      exact (if_neg hcut).symm

theorem not_of_mem_splitOn (hw : w ∈ splitOn p s) (hc : c ∈ w) : p c = false := by
  induction s generalizing w with
  | nil => simp_all [splitOn]
  | cons d s ih =>
    rw [splitOn] at hw
    by_cases hcut : p d
    · rw [if_pos hcut] at hw
      rcases List.mem_cons.1 hw with rfl | hw
      · cases hc
      · exact ih hw hc
    · rw [if_neg hcut] at hw
      cases hs : splitOn p s with
      | nil =>
        rw [hs] at hw
        obtain rfl := List.mem_singleton.1 hw
        obtain rfl := List.mem_singleton.1 hc
        simpa using hcut
      | cons v vs =>
        rw [hs] at hw ih
        rcases List.mem_cons.1 hw with rfl | hw
        · rcases List.mem_cons.1 hc with rfl | hc
          · simpa using hcut
          · exact ih List.mem_cons_self hc
        · exact ih (List.mem_cons_of_mem v hw) hc

theorem exists_mem_splitOn (hc : p c = false) (h : c ∈ s) : ∃ w ∈ splitOn p s, c ∈ w := by
  induction s with
  | nil => cases h
  | cons d s ih =>
    rw [splitOn]
    rcases List.mem_cons.1 h with rfl | h
    · rw [if_neg (by simp [hc])]
      cases splitOn p s <;> simp
    · obtain ⟨w, hw, hmem⟩ := ih h
      split
      · exact ⟨w, List.mem_cons_of_mem [] hw, hmem⟩
      · cases hs : splitOn p s with
        | nil =>
          rw [hs] at hw
          cases hw
        | cons v vs =>
          rw [hs] at hw
          rcases List.mem_cons.1 hw with rfl | hw
          · exact ⟨d :: w, List.mem_cons_self, List.mem_cons_of_mem d hmem⟩
          · exact ⟨w, List.mem_cons_of_mem _ hw, hmem⟩

theorem mem_join_of_mem (hw : w ∈ pieces) (hc : c ∈ w) (separator : List Char) : c ∈ join separator pieces := by
  induction pieces with
  | nil => cases hw
  | cons v vs ih =>
    cases vs with
    | nil =>
      obtain rfl := List.mem_singleton.1 hw
      simpa [join] using hc
    | cons u us =>
      rw [join, List.intercalate_cons_cons, List.mem_append, List.mem_append]
      rcases List.mem_cons.1 hw with rfl | hw
      · exact .inl (.inl hc)
      · exact .inr (ih hw)

/-- What is not blank is left where blanks are collapsed. -/
theorem mem_collapse (hc : isBlank c = false) (h : c ∈ s) : c ∈ collapse s := by
  obtain ⟨w, hw, hmem⟩ := exists_mem_splitOn hc h
  have hne : w ≠ [] := List.ne_nil_of_mem hmem
  exact mem_join_of_mem (List.mem_filter.2 ⟨hw, by simpa using hne⟩) hmem [' ']

/-- If a text has marks inside of quotations, so has one of its pieces. -/
theorem exists_marked_piece {m : Char} (h : (outside quote s).count m ≠ s.count m) :
    ∃ w ∈ splitOutside (· == m) quote s, m ∈ w := by
  by_contra hnone
  have hcounts : (splitOutside (· == m) quote s).map (·.countP (· == m)) =
      (splitOutside (· == m) quote s).map fun _ => 0 :=
    List.map_congr_left fun w hw => List.count_eq_zero.2 fun hm => hnone ⟨w, hw, hm⟩
  have hjoin := countP_join (· == m) m (splitOutside (· == m) quote s)
  have hone : [m].countP (· == m) = 1 := by simp
  rw [join_splitOutside, hcounts, length_splitOutside, hone] at hjoin
  exact h (by simpa [List.count] using hjoin.symm)

theorem mem_iff_of_countP {x y : List Char} (h : x.countP (· == c) = y.countP (· == c)) : c ∈ x ↔ c ∈ y := by
  have hcount : x.count c = y.count c := h
  rw [← List.count_pos_iff, ← List.count_pos_iff, hcount]

/-- What is neither blank nor a quote is left where blanks and quotes are taken off. -/
theorem mem_trim_iff (hblank : isBlank c = false) (hquote : isQuote c = false) : c ∈ trim s ↔ c ∈ s :=
  mem_iff_of_countP ((lasting_beq hblank hquote).countP_trim s)

theorem mem_unquote_iff (hblank : isBlank c = false) (hquote : isQuote c = false) : c ∈ unquote s ↔ c ∈ s :=
  mem_iff_of_countP ((lasting_beq hblank hquote).countP_unquote s)

end Text

namespace Setting

open Text

variable {s : Setting} {token : List Char}

/-! ## Commas -/

theorem parseChars_trim (token : List Char) : parseChars (trim token) = parseChars token := by
  rw [parseChars, parseChars, unquote_congr (trim_trim token)]

/-- The text that a setting carries has commas if and only if its token has. -/
theorem comma_mem_text_iff (h : parseChars token = some s) : ',' ∈ s.text.toList ↔ ',' ∈ token := by
  have hunquote : ∀ text, ',' ∈ unquote text ↔ ',' ∈ text := fun _ => mem_unquote_iff (by decide) (by decide)
  have hlower : ',' ∈ lowercase (unquote token) ↔ ',' ∈ token :=
    (Iff.intro (mem_of_mem_lowercase (by decide)) (mem_lowercase_of_mem (by decide))).trans (hunquote token)
  unfold parseChars at h
  dsimp only at h
  split at h
  · cases h
  · rw [← hlower]
    generalize lowercase (unquote token) = low at h
    rcases of_ofToken (Option.some.inj h) with ⟨key, value, rfl, hkeyed⟩ | hflag | rfl
    · have hkey : ',' ∉ key := by
        rw [← mem_trim_iff (by decide) (by decide)]
        rcases of_keyed? hkeyed with ⟨hkey, -⟩ | ⟨hkey, -⟩ <;> rw [hkey] <;> decide
      rcases of_keyed? hkeyed with ⟨-, rfl⟩ | ⟨-, rfl⟩ <;> simp [text, hunquote, hkey]
    · have hwords : ∀ flag ∈ flagWords, ',' ∉ flag.1 ∧ flag.2.text = "" := by decide +kernel
      obtain ⟨hnone, htext⟩ := hwords _ (mem_flagWords_of_flag? hflag)
      refine iff_of_false (by simp [htext]) fun hmem => hnone (mem_collapse (by decide) hmem)
    · rw [text, String.toList_ofList]

/-- A token with a comma is one of a setting. -/
theorem exists_parseChars_of_comma (h : ',' ∈ token) : ∃ s, parseChars token = some s := by
  have hlow : ',' ∈ lowercase (unquote token) :=
    mem_lowercase_of_mem (by decide) ((mem_unquote_iff (by decide) (by decide)).2 h)
  rw [parseChars, if_neg (by simpa using List.ne_nil_of_mem hlow)]
  exact ⟨_, rfl⟩

end Setting

namespace Settings

open Text

variable {s : List Char}

/-- The settings of the pieces between the commas outside quotations are those of the pieces between all
commas exactly if all commas are outside quotations. -/
theorem ofTokens_splitOutside_iff :
    ofTokens (splitOutside (· == ',') none s) = parse (String.ofList s) ↔
      (outside none s).count ',' = s.count ',' := by
  rw [parse, String.toList_ofList]
  refine ⟨fun hsame => ?_, fun hall => congrArg ofTokens (splitOutside_eq_splitOn hall)⟩
  by_contra hinside
  obtain ⟨w, hw, hcomma⟩ := exists_marked_piece hinside
  obtain ⟨x, hx⟩ := Setting.exists_parseChars_of_comma hcomma
  have hmem : x ∈ (ofTokens (splitOutside (· == ',') none s)).toList :=
    mem_ofList.2 (List.mem_filterMap.2 ⟨w, hw, hx⟩)
  rw [hsame] at hmem
  obtain ⟨v, hv, hx'⟩ := List.mem_filterMap.1 (mem_ofList.1 hmem)
  -- A piece between any two commas has none, so its setting has none either.
  have hpiece : ',' ∈ v := (Setting.comma_mem_text_iff hx').1 ((Setting.comma_mem_text_iff hx).2 hcomma)
  exact absurd (not_of_mem_splitOn hv hpiece) (by decide)

end Settings

namespace Dbml

open Text

variable {d : Draft} {t : Table} {spelled : String} {outer : List Block} {c : Column}
  {name type settings : List Char}

/-! ## The settings of a line -/

theorem Draft.columnSettings_of_plain
    (h : ∀ entry ∈ settingEntries (some settings), inlineText? entry = none) :
    columnSettings (settingEntries (some settings)) =
      Settings.ofTokens (splitOutside (· == ',') none settings) := by
  have hkept : (settingEntries (some settings)).filter (fun e => (inlineText? e).isNone) =
      settingEntries (some settings) :=
    List.filter_eq_self.2 fun entry hentry => by rw [h entry hentry]; rfl
  rw [columnSettings, hkept, settingEntries_some, Settings.ofTokens, Settings.ofTokens, List.filterMap_map]
  exact congrArg Settings.ofList (List.filterMap_congr fun w _ => Setting.parseChars_trim w)

/-- **The settings of a column are those that its settings text is read as on its own exactly if every comma
of the text is outside quotations**, where nothing of the text is a comment, an open long string or a
reference. A line whose column has no settings has the same column with them, and these are the settings of
the pieces between the commas outside quotations. -/
theorem settings_lists_agree_iff (hblock : d.blocks = .table t spelled :: outer) (hname : IsNameWord name)
    (htype : IsTypeWord type) (hkept : (d.afterLine (settledLine name type [])).Gained t spelled outer c)
    (hcode : settingsCode settings = settings ++ [']'])
    (hplain : ∀ entry ∈ Draft.settingEntries (some settings), Draft.inlineText? entry = none) :
    ∃ c', (d.afterLine (settledLine name type settings)).Gained t spelled outer c' ∧
      c'.name = c.name ∧ c'.dataType = c.dataType ∧
      c'.settings = Settings.ofTokens (splitOutside (· == ',') none settings) ∧
      (c'.settings = Settings.parse (String.ofList settings) ↔
        (outside none settings).count ',' = settings.count ',') := by
  have hblank : ∀ c ∈ [' '], isBlank c = true := List.forall_mem_singleton.2 (by decide)
  unfold Draft.afterLine at hkept ⊢
  rw [(code_settledLine hname htype []).1] at hkept
  rw [(code_settledLine hname htype settings).1]
  obtain ⟨c', hkept', hnamed, htyped⟩ : ∃ c', (d.step (columnCode name type [' ']
      (settingsCode settings))).1.Gained t spelled outer c' ∧ c'.name = c.name ∧ c'.dataType = c.dataType :=
    Draft.exists_gained hblock hname htype hblank hblank hkept
  have hsettings : c'.settings = Settings.ofTokens (splitOutside (· == ',') none settings) := by
    have hcut : Draft.upToBracket (trimRight (settings ++ [']'])) = settings := by
      rw [trimRight_append_cons (by decide)]
      exact Draft.upToBracket_append (by decide)
    rw [(Draft.settings_of_gained hblock hname htype hblank hkept').1, hcode, hcut,
      Draft.columnSettings_of_plain hplain]
  refine ⟨c', hkept', hnamed, htyped, hsettings, ?_⟩
  rw [hsettings]
  exact Settings.ofTokens_splitOutside_iff

/-- A key with a remark in quotes is read alike in the brackets of a column and on its own. -/
theorem key_with_remark_is_read_alike : ∃ c : Column,
    (shopsOpened.afterLine (settledLine "owner".toList "int".toList "pk, note: 'by hand'".toList)).Gained
      ⟨"shops", []⟩ "shops" [] c ∧
    c.name = "owner" ∧ c.settings = Settings.parse "pk, note: 'by hand'" := by
  have hblock : shopsOpened.blocks = [.table ⟨"shops", []⟩ "shops"] := by decide +kernel
  have hname : IsNameWord "owner".toList :=
    ⟨by decide, List.all_iff_forall_prop.1 (by decide +kernel), by decide +kernel,
      verbatim_bare (List.all_iff_forall_prop.1 (by decide +kernel))⟩
  have htype : IsTypeWord "int".toList :=
    ⟨by decide, List.all_iff_forall_prop.1 (by decide +kernel), by decide +kernel⟩
  have hkept : (shopsOpened.afterLine (settledLine "owner".toList "int".toList [])).blocks =
      [.table ⟨"shops", [] ++ [⟨"owner", "int", .empty⟩]⟩ "shops"] := by decide +kernel
  have hplain : ∀ entry ∈ Draft.settingEntries (some "pk, note: 'by hand'".toList),
      Draft.inlineText? entry = none := by decide +kernel
  obtain ⟨c, hgained, hnamed, -, -, hiff⟩ :=
    settings_lists_agree_iff hblock hname htype hkept (by decide +kernel) hplain
  exact ⟨c, hgained, hnamed, hiff.2 (by decide +kernel)⟩

/-- A comma in a remark is kept in the brackets of a column, but splits the remark when the settings are read
on their own. -/
theorem comma_in_remark_is_read_apart :
    readColumn "owner int [note: 'a, b', pk]" =
      some ⟨⟨[⟨"shops", [⟨"owner", "int", ⟨[.note "a, b", .primaryKey]⟩⟩]⟩], []⟩, []⟩ ∧
    Settings.parse "note: 'a, b', pk" = ⟨[.note "'a", .extension "b'", .primaryKey]⟩ := by
  decide +kernel

end Dbml
end SeedData
