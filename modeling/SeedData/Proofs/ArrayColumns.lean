/-
Columns of an array type. A type ends at the first opening bracket of its line, so `name type[] [settings]`
is cut at the array mark. Its column has the name and the type of `name type [settings]`, but the first
entry of the settings is lost: it becomes an unknown setting that starts with the brackets in between
(`array_mark_spoils_settings`). The two lines say the same only where a comment hides the closing bracket
and nothing is said before it.
-/
import Mathlib.Data.Bool.AllAny
import Mathlib.Data.List.Induction
import Mathlib.Data.List.TakeDrop
import SeedData.Proofs.InlineReferences
import SeedData.Proofs.Layout
import SeedData.Proofs.LowerCase
import SeedData.Proofs.Spelling

namespace SeedData

namespace Text

variable {p : Char → Bool} {quote : Option Char} {c : Char} {s x y : List Char}

/-! ## Parts of a text -/

theorem mem_of_mem_unquote (h : c ∈ unquote s) : c ∈ s := by
  rw [unquote] at h
  split at h
  · exact absurd h List.not_mem_nil
  · rename_i q r htrim
    refine mem_of_mem_trim ?_
    rw [htrim]
    split at h
    · exact List.mem_cons_of_mem q (List.dropLast_subset r (mem_of_mem_trim h))
    · exact h

theorem mem_of_mem_splitOutside (hx : x ∈ splitOutside p quote s) (hc : c ∈ x) : c ∈ s := by
  induction s generalizing quote x with
  | nil => simp_all [splitOutside]
  | cons d s ih =>
    rw [splitOutside] at hx
    split at hx
    · rcases List.mem_cons.1 hx with rfl | hx
      · exact absurd hc List.not_mem_nil
      · exact List.mem_cons_of_mem d (ih hx hc)
    · cases hs : splitOutside p (quoteAfter quote d) s with
      | nil => exact absurd hs (splitOutside_ne_nil p _ s)
      | cons w ws =>
        rw [hs] at hx
        rcases List.mem_cons.1 hx with rfl | hx
        · rcases List.mem_cons.1 hc with rfl | hc
          · exact List.mem_cons_self
          · exact List.mem_cons_of_mem d (ih (hs ▸ List.mem_cons_self) hc)
        · exact List.mem_cons_of_mem d (ih (hs ▸ List.mem_cons_of_mem w hx) hc)

/-! ## Pieces and blanks -/

/-- A text in front that has nothing to split at stays with the first piece. -/
theorem splitOutside_past (h : ∀ c ∈ outside quote x, p c = false) (hx : x.foldl quoteAfter quote = none)
    {w : List Char} {ws : List (List Char)} (hy : splitOutside p none y = w :: ws) :
    splitOutside p quote (x ++ y) = (x ++ w) :: ws := by
  induction x generalizing quote with
  | nil =>
    obtain rfl : quote = none := hx
    exact hy
  | cons c x ih =>
    rw [outside] at h
    rw [List.cons_append, splitOutside]
    by_cases hc : isOutside quote c
    · rw [if_pos hc] at h
      rw [h c List.mem_cons_self, Bool.and_false, if_neg Bool.false_ne_true,
        ih (fun e he => h e (List.mem_cons_of_mem c he)) hx]
      rfl
    · rw [if_neg hc] at h
      rw [Bool.not_eq_true] at hc
      rw [hc, Bool.false_and, if_neg Bool.false_ne_true, ih h hx]
      rfl

theorem trimRight_trimRight (s : List Char) : trimRight (trimRight s) = trimRight s := by
  refine trimRight_eq_self fun c hc => ?_
  rw [trimRight, List.getLast?_reverse] at hc
  have hhead := List.head?_dropWhile_not isBlank s.reverse
  rw [Option.mem_def.1 hc] at hhead
  exact hhead

theorem mem_trimRight_iff (hc : isBlank c = false) : c ∈ trimRight s ↔ c ∈ s := by
  obtain ⟨blanks, hs, hblank⟩ := trimRight_spec s
  constructor
  · intro h
    rw [hs]
    exact List.mem_append_left _ h
  · intro h
    rw [hs, List.mem_append] at h
    refine h.resolve_right fun hmem => ?_
    rw [hblank c hmem] at hc
    cases hc

/-- Text that starts with something else than a blank starts with it when its blanks are collapsed. -/
theorem head?_collapse_cons (hc : isBlank c = false) (s : List Char) :
    (collapse (c :: s)).head? = some c := by
  rw [collapse, words, splitOn, hc, if_neg Bool.false_ne_true]
  cases splitOn isBlank s with
  | nil => simp [join]
  | cons w ws => cases hws : ws.filter (· ≠ []) <;> simp [join]

end Text

namespace Settings

theorem mem_ofList {x : Setting} {l : List Setting} : x ∈ (ofList l).toList ↔ x ∈ l := by
  induction l using List.reverseRecOn with
  | nil => rfl
  | append_singleton l y ih =>
    rw [ofList, List.foldl_append, List.foldl_cons, List.foldl_nil, ← ofList, Settings.insert,
      List.mem_append, List.mem_singleton, ← ih]
    split
    · rename_i hold
      have hy : y ∈ (ofList l).toList := by simpa [contains] using hold
      exact ⟨.inl, fun h => h.elim id fun hxy => hxy ▸ hy⟩
    · rw [List.mem_append, List.mem_singleton]

end Settings

namespace Setting

theorem flag?_ne_extension (words : List Char) (text : String) : flag? words ≠ some (.extension text) := by
  unfold flag?
  intro h
  repeat' split at h
  all_goals cases h

theorem keyed?_ne_extension (key value : List Char) (text : String) :
    keyed? key value ≠ some (.extension text) := by
  unfold keyed?
  intro h
  dsimp only at h
  repeat' split at h
  all_goals cases h

/-- A token that starts with a bracket is none of the known settings. -/
theorem ofToken_bracket (token : List Char) :
    ofToken (']' :: token) = .extension (String.ofList (']' :: token)) := by
  have hne : ∀ {words word : List Char}, words.head? = some ']' → word.head? ≠ some ']' → words ≠ word := by
    rintro words word hwords hword rfl
    exact hword hwords
  have hkeyed : ∀ key value, keyed? (']' :: key) value = none := by
    intro key value
    have hkey : (Text.trim (']' :: key)).head? = some ']' := by
      have htrim := Text.trim_around (c := ']') (by decide) [] key
      rw [List.nil_append] at htrim
      rw [htrim]
      rfl
    rw [keyed?, if_neg (hne hkey (by decide)), if_neg (hne hkey (by decide))]
  have hflag : flag? (Text.collapse (']' :: token)) = none := by
    have hhead := Text.head?_collapse_cons (c := ']') (by decide) token
    rw [flag?, if_neg (not_or.2 ⟨hne hhead (by decide), hne hhead (by decide)⟩), if_neg (hne hhead (by decide)),
      if_neg (hne hhead (by decide)), if_neg (hne hhead (by decide)), if_neg (hne hhead (by decide))]
  unfold ofToken
  rw [List.span_eq_takeWhile_dropWhile, List.takeWhile_cons_of_pos (by decide), hflag]
  dsimp only
  cases List.dropWhile (fun c => decide (c ≠ ':')) (']' :: token) with
  | nil => rfl
  | cons c value =>
    dsimp only
    rw [hkeyed]
    rfl

/-- An unknown setting is the token that writes it. -/
theorem eq_of_ofToken_extension {token : List Char} {text : String} (h : ofToken token = .extension text) :
    text = String.ofList token := by
  unfold ofToken at h
  dsimp only at h
  split at h
  · rename_i s hs
    split at hs
    · cases hs
    · rw [h] at hs
      exact absurd hs (keyed?_ne_extension _ _ _)
  · cases hcollapse : flag? (Text.collapse token) with
    | none =>
      rw [hcollapse] at h
      exact (Setting.extension.inj h).symm
    | some s =>
      rw [hcollapse] at h
      obtain rfl : s = .extension text := h
      exact absurd hcollapse (flag?_ne_extension _ _)

end Setting

namespace Dbml

open Text

/-! ## What the start of a line decides -/

theorem leadingKeyword_append {c : Char} (hc : (c.isAlphanum || c == '_') = false) (w y : List Char) :
    leadingKeyword (w ++ c :: y) = leadingKeyword w := by
  induction w with
  | nil => simp [leadingKeyword, hc]
  | cons c w ih =>
    simp only [leadingKeyword, List.cons_append, List.takeWhile_cons] at ih ⊢
    split
    · rw [List.map_cons, List.map_cons, ih]
    · rfl

theorem length_leadingKeyword_le (w : List Char) : (leadingKeyword w).length ≤ w.length := by
  rw [leadingKeyword, List.length_map]
  exact (List.takeWhile_prefix _).length_le

section Starts

variable {w : List Char} {keyword : List Char} {t : Char} (ht : isBlank t = false)
include ht

/-- What follows the keyword of a line does not depend on what follows its second word. -/
theorem head?_afterKeyword (hkeyword : keyword.length ≤ w.length) (y z : List Char) :
    (afterKeyword keyword (w ++ ' ' :: t :: y)).head? = (afterKeyword keyword (w ++ ' ' :: t :: z)).head? := by
  have hafter : ∀ y, afterKeyword keyword (w ++ ' ' :: t :: y) =
      trimLeft (w.drop keyword.length ++ [' ']) ++ t :: y := by
    intro y
    rw [afterKeyword, List.drop_append_of_le_length hkeyword, ← trimLeft_append_cons ht, List.append_assoc]
    rfl
  rw [hafter, hafter, List.head?_append, List.head?_append]
  rfl

theorem isColumnLine_congr (y z : List Char) :
    IsColumnLine (w ++ ' ' :: t :: y) ↔ IsColumnLine (w ++ ' ' :: t :: z) := by
  have hhead := head?_afterKeyword ht (length_leadingKeyword_le w) y z
  have hopens : opensBlock (leadingKeyword w) (w ++ ' ' :: t :: y) =
      opensBlock (leadingKeyword w) (w ++ ' ' :: t :: z) := by
    unfold opensBlock
    grind
  have hdirective : isDirective (leadingKeyword w) (w ++ ' ' :: t :: y) =
      isDirective (leadingKeyword w) (w ++ ' ' :: t :: z) := by
    unfold isDirective
    grind
  unfold IsColumnLine
  dsimp only
  rw [leadingKeyword_append (by decide), leadingKeyword_append (by decide), hopens, hdirective, List.head?_append,
    List.head?_append]
  rfl

end Starts

/-! ## Lines with settings -/

/-- A name as a column's line writes it: one word, with its quotations closed and no comment in it. -/
structure IsNameWord (name : List Char) : Prop where
  ne_nil : name ≠ []
  whole : ∀ c ∈ outside none name, isBlank c = false
  closed : name.foldl quoteAfter none = none
  verbatim : Verbatim (name ++ [' '])

/-- A type of one word, without quotes, opening brackets and comments. -/
structure IsTypeWord (type : List Char) : Prop where
  ne_nil : type ≠ []
  bare : ∀ c ∈ type, isBlank c = false ∧ isQuote c = false ∧ c ≠ '['
  uncommented : ¬ ['/', '/'] <:+: type ∧ ¬ ['/', '*'] <:+: type

/-- The code of a column's line with an opening bracket, up to which it has a gap behind the type. -/
def columnCode (name type gap text : List Char) : List Char := name ++ ' ' :: (type ++ (gap ++ '[' :: text))

/-- The line of a column with settings. -/
def settledLine (name type settings : List Char) : List Char :=
  name ++ ' ' :: (type ++ ' ' :: '[' :: (settings ++ [']']))

def arrayMark : List Char := ['[', ']']

/-- The settings as code, with the bracket that closes them unless a comment hides it. -/
def settingsCode (settings : List Char) : List Char := (codeFrom .code (settings ++ [']'])).1

section Lines

variable {name type gap text : List Char}

theorem IsNameWord.head (h : IsNameWord name) : ∀ c ∈ name.head?, isBlank c = false := by
  intro c hc
  obtain ⟨r, rfl⟩ := List.head?_eq_some_iff.1 (Option.mem_def.1 hc)
  by_cases hquote : isQuote c
  · rw [Bool.eq_false_iff]
    intro hblank
    rw [isQuote_of_isBlank hblank] at hquote
    cases hquote
  · rw [Bool.not_eq_true] at hquote
    exact h.whole c (by simp [outside, isOutside, hquote])

theorem codeFrom_word (hbare : ∀ c ∈ type, isQuote c = false)
    (huncommented : ¬ ['/', '/'] <:+: type ∧ ¬ ['/', '*'] <:+: type) {c : Char} (hc : c ≠ '/' ∧ c ≠ '*')
    (r : List Char) :
    codeFrom .code (type ++ c :: r) =
      (type ++ (codeFrom .code (c :: r)).1, (codeFrom .code (c :: r)).2) := by
  induction type with
  | nil => rfl
  | cons d type ih =>
    have hquote := hbare d List.mem_cons_self
    have hapostrophe : d ≠ '\'' := by
      rintro rfl
      exact absurd hquote (by decide)
    -- A slash is followed by what does not make a comment of it.
    have hmark : ∀ e, e = '/' ∨ e = '*' → ¬ ['/', e] <:+: d :: type → d = '/' →
        ∀ y, type ++ c :: r ≠ e :: y := by
      rintro e he hno rfl y hy
      cases type with
      | nil =>
        obtain rfl := (List.cons.inj hy).1
        exact he.elim hc.1 hc.2
      | cons f type =>
        obtain rfl := (List.cons.inj hy).1
        exact hno ⟨[], type, rfl⟩
    have hrest := ih (fun e he => hbare e (List.mem_cons_of_mem d he))
      ⟨fun h => huncommented.1 (h.trans (List.suffix_cons d type).isInfix),
        fun h => huncommented.2 (h.trans (List.suffix_cons d type).isInfix)⟩
    rw [List.cons_append, codeFrom, hquote, if_neg Bool.false_ne_true, hrest]
    · rfl
    · exact fun y hd hy => hmark '/' (.inl rfl) huncommented.1 hd y hy
    · exact fun y hd hy => hmark '*' (.inr rfl) huncommented.2 hd y hy
    · exact fun y hd => absurd hd hapostrophe

/-- Up to its opening brackets a column's line is code as it stands. -/
theorem codeFrom_columnLine (hname : IsNameWord name) (htype : IsTypeWord type) {c : Char}
    (hgap : ∀ d ∈ c :: gap, isBare d = true ∧ d ≠ '*') (r : List Char) :
    (codeFrom .code (name ++ ' ' :: (type ++ (c :: gap ++ r)))).1 =
      name ++ ' ' :: (type ++ (c :: gap ++ (codeFrom .code r).1)) := by
  have hc : c ≠ '/' ∧ c ≠ '*' := by
    have := hgap c List.mem_cons_self
    exact ⟨ne_of_class this.1 (by decide), this.2⟩
  have hverbatim := verbatim_bare fun d hd => (hgap d hd).1
  have hstart : name ++ ' ' :: (type ++ (c :: gap ++ r)) = (name ++ [' ']) ++ (type ++ (c :: gap ++ r)) := by
    simp
  have hword := codeFrom_word (fun d hd => (htype.bare d hd).2.1) htype.uncommented hc (gap ++ r)
  rw [← List.cons_append, hverbatim] at hword
  rw [hstart, hname.verbatim, hword]
  simp

theorem trim_columnCode (hname : IsNameWord name) :
    trim (columnCode name type gap text) = columnCode name type gap (trimRight text) := by
  have hstart : columnCode name type gap text = (name ++ ' ' :: (type ++ gap)) ++ '[' :: text := by
    simp [columnCode]
  have hhead : ∀ c ∈ (name ++ ' ' :: (type ++ gap)).head?, isBlank c = false := by
    rw [List.head?_append_of_ne_nil _ hname.ne_nil]
    exact hname.head
  rw [hstart, trim_around (by decide), trimLeft_eq_self hhead]
  simp [columnCode]

/-- The parts of a column's line: the name, the type, and the text behind the first bracket. -/
theorem columnText_columnCode (hname : IsNameWord name) (htype : IsTypeWord type)
    (hgap : ∀ c ∈ gap, isBlank c = true) :
    Draft.columnText (trim (columnCode name type gap text)) =
      ⟨unquote name, type, some (Draft.upToBracket (trimRight text))⟩ := by
  have hbare : ∀ c ∈ type ++ gap, isQuote c = false ∧ c ≠ '[' := by
    intro c hc
    rcases List.mem_append.1 hc with hc | hc
    · exact (htype.bare c hc).2
    · exact ⟨isQuote_of_isBlank (hgap c hc), ne_of_isBlank (hgap c hc) (by decide)⟩
  have hhead : ∀ c ∈ (type ++ gap).head?, isBlank c = false := by
    rw [List.head?_append_of_ne_nil _ htype.ne_nil]
    exact fun c hc => (htype.bare c (List.mem_of_mem_head? hc)).1
  have hrest : ∀ text, trim (' ' :: (type ++ (gap ++ '[' :: text))) = (type ++ gap) ++ '[' :: trimRight text := by
    intro text
    rw [trim_blank_cons (by decide), ← List.append_assoc, trim_around (by decide), trimLeft_eq_self hhead]
  have hname' : breakOutside isBlank none (columnCode name type gap (trimRight text)) =
      (name, ' ' :: (type ++ (gap ++ '[' :: trimRight text))) :=
    breakOutside_at hname.whole hname.closed (by decide) (by decide) _
  obtain ⟨hout, hfold⟩ := outside_of_bare fun c hc => (hbare c hc).1
  have htype' : breakOutside (· == '[') none ((type ++ gap) ++ '[' :: trimRight text) =
      (type ++ gap, '[' :: trimRight text) := by
    refine breakOutside_at ?_ hfold (by decide) (by decide) _
    rw [hout]
    exact fun c hc => beq_false_of_ne (hbare c hc).2
  have hword : unquote (type ++ gap) = type := by
    rw [unquote_bare fun c hc => (hbare c hc).1, trim_append_blank hgap]
    exact trim_eq_self (fun c hc => (htype.bare c (List.mem_of_mem_head? hc)).1)
      fun c hc => (htype.bare c (List.mem_of_mem_getLast? hc)).1
  rw [trim_columnCode hname, Draft.columnText, hname']
  dsimp only
  rw [hrest, trimRight_trimRight, htype']
  dsimp only
  rw [hword]
  rfl

/-- A column's line with settings, and that of an array column, as code. -/
theorem code_settledLine (hname : IsNameWord name) (htype : IsTypeWord type) (settings : List Char) :
    (codeFrom .code (settledLine name type settings)).1 =
        columnCode name type [' '] (settingsCode settings) ∧
      (codeFrom .code (settledLine name (type ++ arrayMark) settings)).1 =
        columnCode name type [] (']' :: ' ' :: '[' :: settingsCode settings) := by
  have hgap : ∀ d ∈ [' ', '['], isBare d = true ∧ d ≠ '*' := List.all_iff_forall_prop.1 (by decide)
  have hmark : ∀ d ∈ ['[', ']', ' ', '['], isBare d = true ∧ d ≠ '*' := List.all_iff_forall_prop.1 (by decide)
  have hplain := codeFrom_columnLine hname htype hgap (settings ++ [']'])
  have harray := codeFrom_columnLine hname htype hmark (settings ++ [']'])
  constructor
  · simpa [settledLine, columnCode, settingsCode] using hplain
  · simpa [settledLine, arrayMark, columnCode, settingsCode] using harray

end Lines

theorem mem_of_mem_codeFrom {mode : Mode} {s : List Char} {c : Char} (h : c ∈ (codeFrom mode s).1) :
    c ∈ s ∨ c = ' ' := by
  fun_induction codeFrom mode s <;> simp_all <;> grind

/-! ## Settings that start with a mark -/

namespace Draft

variable {s x y : List Char}

theorem upToBracket_append (h : ']' ∉ y) : upToBracket (x ++ ']' :: y) = x := by
  have hskip : ∀ c ∈ y.reverse, (c != ']') = true := by
    intro c hc
    rw [List.mem_reverse] at hc
    exact bne_iff_ne.2 fun heq => h (heq ▸ hc)
  rw [upToBracket, List.reverse_append, List.reverse_cons, List.append_assoc,
    List.dropWhile_append_of_pos hskip]
  simp

theorem upToBracket_of_not_mem (h : ']' ∉ s) : upToBracket s = s := by
  have hskip : ∀ c ∈ s.reverse, (c != ']') = true := by
    intro c hc
    rw [List.mem_reverse] at hc
    exact bne_iff_ne.2 fun heq => h (heq ▸ hc)
  have hnil : (s.reverse ++ []).dropWhile (· != ']') = [].dropWhile (· != ']') :=
    List.dropWhile_append_of_pos hskip
  rw [List.append_nil, List.dropWhile_nil] at hnil
  rw [upToBracket, hnil]

theorem exists_last_bracket (h : ']' ∈ s) : ∃ x y, s = x ++ ']' :: y ∧ ']' ∉ y := by
  obtain ⟨y, x, hs, hy⟩ := List.eq_append_cons_of_mem (List.mem_reverse.2 h)
  refine ⟨x.reverse, y.reverse, ?_, fun hmem => hy (List.mem_reverse.1 hmem)⟩
  rw [← List.reverse_reverse s, hs]
  simp

/-- An entry that starts with the brackets of a mark and of the settings is an unknown setting. -/
theorem entry_of_mark (w : List Char) : ∃ token : String, '[' ∈ token.toList ∧
    Setting.parseChars (trim (']' :: ' ' :: '[' :: w)) = some (.extension token) ∧
    inlineText? (trim (']' :: ' ' :: '[' :: w)) = none := by
  have htrim : trim (']' :: ' ' :: '[' :: w) = ']' :: ' ' :: '[' :: trimRight w :=
    trim_around (by decide) [']', ' '] w
  have hunquote : unquote (trim (']' :: ' ' :: '[' :: w)) = ']' :: ' ' :: '[' :: trimRight w := by
    rw [unquote, trim_trim, htrim]
    rfl
  obtain ⟨low, hlow⟩ : ∃ low, lowercase (']' :: ' ' :: '[' :: trimRight w) = ']' :: ' ' :: '[' :: low :=
    ⟨_, rfl⟩
  refine ⟨String.ofList (']' :: ' ' :: '[' :: low), by simp, ?_, ?_⟩
  · rw [Setting.parseChars, hunquote, hlow, Setting.ofToken_bracket]
    rfl
  · rw [htrim]
    rfl

theorem settingEntries_some (s : List Char) :
    settingEntries (some s) = (splitOutside (· == ',') none s).map trim := rfl

/-- Brackets in front of settings change the first entry only. -/
theorem settingEntries_mark (s : List Char) : ∃ first rest, settingEntries (some s) = trim first :: rest ∧
    settingEntries (some (']' :: ' ' :: '[' :: s)) = trim (']' :: ' ' :: '[' :: first) :: rest := by
  cases hs : splitOutside (· == ',') none s with
  | nil => exact absurd hs (splitOutside_ne_nil _ none s)
  | cons first rest =>
    have hmark : splitOutside (· == ',') none ([']', ' ', '['] ++ s) = ([']', ' ', '['] ++ first) :: rest :=
      splitOutside_past (List.all_iff_forall_prop.1 (by decide)) (by decide) hs
    exact ⟨first, rest.map trim, by rw [settingEntries_some, hs, List.map_cons],
      by rw [settingEntries_some]; exact congrArg (List.map trim) hmark⟩

theorem columnSettings_cons_extension {entry : List Char} {token : String} (rest : List (List Char))
    (hparse : Setting.parseChars entry = some (.extension token)) (hinline : inlineText? entry = none) :
    columnSettings (entry :: rest) = Settings.ofList (.extension token ::
      (rest.filter fun e => (inlineText? e).isNone).filterMap Setting.parseChars) := by
  rw [columnSettings, List.filter_cons_of_pos (by rw [hinline]; rfl), Settings.ofTokens,
    List.filterMap_cons_some hparse]

theorem inlineTexts_cons_of_none {entry : List Char} (rest : List (List Char))
    (hinline : inlineText? entry = none) : inlineTexts (entry :: rest) = inlineTexts rest := by
  rw [inlineTexts, List.filterMap_cons_none (by rw [hinline]; rfl), inlineTexts]

/-- Settings that are written without an opening bracket have none. -/
theorem bracket_mem_of_extension_mem {token : String} (htoken : '[' ∈ token.toList)
    (h : .extension token ∈ (columnSettings (settingEntries (some s))).toList) : '[' ∈ s := by
  obtain ⟨entry, hentry, hparse⟩ := List.mem_filterMap.1 (Settings.mem_ofList.1 h)
  obtain ⟨piece, hpiece, rfl⟩ := List.mem_map.1 (List.mem_of_mem_filter hentry)
  unfold Setting.parseChars at hparse
  dsimp only at hparse
  split at hparse
  · cases hparse
  · have htext := Setting.eq_of_ofToken_extension (Option.some.inj hparse)
    rw [htext, String.toList_ofList] at htoken
    exact mem_of_mem_splitOutside hpiece
      (mem_of_mem_trim (mem_of_mem_unquote (mem_of_mem_lowercase (by decide) htoken)))

end Draft

/-! ## Array columns -/

/-- The draft after a line that starts as code. -/
def Draft.afterLine (d : Draft) (line : List Char) : Draft := (d.step (codeFrom .code line).1).1

/-- The entries of the settings in a line. -/
def lineEntries (line : List Char) : List (List Char) :=
  Draft.settingEntries (Draft.columnText (trim (codeFrom .code line).1)).settings

section

variable {d : Draft} {t : Table} {spelled : String} {outer : List Block} {c : Column}
  {name type gap text gap' text' : List Char}

/-- What stands behind the type does not decide whether a line adds a column. -/
theorem Draft.exists_gained (hblock : d.blocks = .table t spelled :: outer) (hname : IsNameWord name)
    (htype : IsTypeWord type) (hgap : ∀ c ∈ gap, isBlank c = true) (hgap' : ∀ c ∈ gap', isBlank c = true)
    (h : (d.step (columnCode name type gap text)).1.Gained t spelled outer c) :
    ∃ c', (d.step (columnCode name type gap' text')).1.Gained t spelled outer c' ∧ c'.name = c.name ∧
      c'.dataType = c.dataType := by
  obtain ⟨hcolumn, hopen, rfl, hnamed, htyped, hnew⟩ := (gained_iff hblock).1 h
  have htexts : Draft.columnText (trim (columnCode name type gap text)) = _ :=
    columnText_columnCode hname htype hgap
  have htexts' : Draft.columnText (trim (columnCode name type gap' text')) = _ :=
    columnText_columnCode hname htype hgap'
  have hnameEq : (lineColumn (trim (columnCode name type gap' text'))).name =
      (lineColumn (trim (columnCode name type gap text))).name := by
    rw [lineColumn, lineColumn, htexts, htexts']
  have htypeEq : (lineColumn (trim (columnCode name type gap' text'))).dataType =
      (lineColumn (trim (columnCode name type gap text))).dataType := by
    rw [lineColumn, lineColumn, htexts, htexts']
  refine ⟨_, (gained_iff hblock).2 ⟨?_, fun hheader => ?_, rfl, ?_, ?_, ?_⟩, hnameEq, htypeEq⟩
  · rw [trim_columnCode hname] at hcolumn ⊢
    cases type with
    | nil => exact absurd rfl htype.ne_nil
    | cons first type => exact (isColumnLine_congr (htype.bare first List.mem_cons_self).1 _ _).1 hcolumn
  · have hhead := hopen hheader
    rw [trim_columnCode hname, columnCode, List.head?_append_of_ne_nil _ hname.ne_nil] at hhead ⊢
    exact hhead
  · rw [htexts] at hnamed
    rw [htexts']
    exact hnamed
  · rw [htexts] at htyped
    rw [htexts']
    exact htyped
  · rw [hnameEq]
    exact hnew

/-- The settings and the references that a column's line has behind its first bracket. -/
theorem Draft.settings_of_gained (hblock : d.blocks = .table t spelled :: outer) (hname : IsNameWord name)
    (htype : IsTypeWord type) (hgap : ∀ c ∈ gap, isBlank c = true)
    (h : (d.step (columnCode name type gap text)).1.Gained t spelled outer c) :
    c.settings = columnSettings (settingEntries (some (upToBracket (trimRight text)))) ∧
      (d.step (columnCode name type gap text)).1.links = d.links ++
        (inlineTexts (settingEntries (some (upToBracket (trimRight text))))).filterMap
          (inlineLink? ⟨spelled, c.name⟩) := by
  obtain ⟨hc, hlinks⟩ := links_of_column hblock h
  rw [lineInlineTexts, columnText_columnCode hname htype hgap] at hlinks
  refine ⟨?_, hlinks⟩
  rw [hc, lineColumn, columnText_columnCode hname htype hgap]

end

/-- Behind the mark, the first entry of settings that are closed is an unknown setting. -/
theorem Draft.settings_behind_mark {code : List Char} (hbracket : ']' ∈ code) (hclear : '[' ∉ code) :
    ∃ entry rest token, settingEntries (some (upToBracket code)) = entry :: rest ∧
      columnSettings (settingEntries (some (upToBracket (']' :: ' ' :: '[' :: code)))) =
        Settings.ofList (.extension token ::
          (rest.filter fun e => (inlineText? e).isNone).filterMap Setting.parseChars) ∧
      inlineTexts (settingEntries (some (upToBracket (']' :: ' ' :: '[' :: code)))) = inlineTexts rest ∧
      columnSettings (settingEntries (some (upToBracket (']' :: ' ' :: '[' :: code)))) ≠
        columnSettings (settingEntries (some (upToBracket code))) := by
  obtain ⟨x, y, rfl, hy⟩ := exists_last_bracket hbracket
  have hcut : upToBracket (']' :: ' ' :: '[' :: (x ++ ']' :: y)) = ']' :: ' ' :: '[' :: x :=
    upToBracket_append (x := ']' :: ' ' :: '[' :: x) hy
  obtain ⟨first, rest, hfirst, hmarked⟩ := settingEntries_mark x
  obtain ⟨token, htoken, hparse, hinline⟩ := entry_of_mark first
  rw [hcut, upToBracket_append hy, hmarked, columnSettings_cons_extension rest hparse hinline,
    inlineTexts_cons_of_none rest hinline]
  refine ⟨_, rest, token, hfirst, rfl, rfl, fun hsame => ?_⟩
  -- The unknown setting has the mark's bracket in it, which no entry of the settings has.
  have hunknown : Setting.extension token ∈ (columnSettings (settingEntries (some x))).toList := by
    rw [← hsame]
    exact Settings.mem_ofList.2 List.mem_cons_self
  exact hclear (List.mem_append_left _ (bracket_mem_of_extension_mem htoken hunknown))

/-- Behind the mark, settings that are not closed are empty. -/
theorem Draft.upToBracket_behind_mark {code : List Char} (hbracket : ']' ∉ code) :
    upToBracket (']' :: ' ' :: '[' :: code) = [] :=
  upToBracket_append (x := []) (by simpa using hbracket)

/-- **An array mark costs a column the first entry of its settings.** The column of `name type[] [settings]`
has the name and the type of the column of `name type [settings]`. Of its settings the first has become an
unknown one, and if it was a reference, there is none. The two columns have the same settings and references
only where a comment hides the closing bracket and the settings before it say nothing. -/
theorem array_mark_spoils_settings {d : Draft} {t : Table} {spelled : String} {outer : List Block} {c : Column}
    {name type settings : List Char} (hblock : d.blocks = .table t spelled :: outer)
    (hname : IsNameWord name) (htype : IsTypeWord type) (hsettings : '[' ∉ settings)
    (hkept : (d.afterLine (settledLine name type settings)).Gained t spelled outer c) :
    ∃ c', (d.afterLine (settledLine name (type ++ arrayMark) settings)).Gained t spelled outer c' ∧
      c'.name = c.name ∧ c'.dataType = c.dataType ∧
      (']' ∈ settingsCode settings → ∃ entry rest token,
        lineEntries (settledLine name type settings) = entry :: rest ∧
        c'.settings = Settings.ofList (.extension token ::
          (rest.filter fun e => (Draft.inlineText? e).isNone).filterMap Setting.parseChars) ∧
        (d.afterLine (settledLine name (type ++ arrayMark) settings)).links =
          d.links ++ (Draft.inlineTexts rest).filterMap (inlineLink? ⟨spelled, c.name⟩)) ∧
      (c'.settings = c.settings ∧ (d.afterLine (settledLine name (type ++ arrayMark) settings)).links =
          (d.afterLine (settledLine name type settings)).links ↔
        ']' ∉ settingsCode settings ∧ c.settings = .empty ∧
          (d.afterLine (settledLine name type settings)).links = d.links) := by
  obtain ⟨hplain, harray⟩ := code_settledLine hname htype settings
  have hblank : ∀ c ∈ [' '], isBlank c = true := List.forall_mem_singleton.2 (by decide)
  have hentries : lineEntries (settledLine name type settings) =
      Draft.settingEntries (some (Draft.upToBracket (trimRight (settingsCode settings)))) := by
    rw [lineEntries, hplain, columnText_columnCode hname htype hblank]
  have hshorter : trimRight (']' :: ' ' :: '[' :: settingsCode settings) =
      ']' :: ' ' :: '[' :: trimRight (settingsCode settings) :=
    trimRight_append_cons (by decide) [']', ' '] _
  unfold Draft.afterLine at hkept ⊢
  rw [hplain] at hkept ⊢
  rw [harray]
  obtain ⟨c', hkept', hnameEq, htypeEq⟩ : ∃ c', (d.step (columnCode name type []
      (']' :: ' ' :: '[' :: settingsCode settings))).1.Gained t spelled outer c' ∧
        c'.name = c.name ∧ c'.dataType = c.dataType :=
    Draft.exists_gained hblock hname htype hblank (by simp) hkept
  obtain ⟨hset, hlinks⟩ := Draft.settings_of_gained hblock hname htype hblank hkept
  obtain ⟨hset', hlinks'⟩ := Draft.settings_of_gained hblock hname htype (by simp) hkept'
  rw [hshorter] at hset' hlinks'
  rw [hnameEq] at hlinks'
  refine ⟨c', hkept', hnameEq, htypeEq, ?_⟩
  rw [hentries, hset, hlinks, hset', hlinks', ← mem_trimRight_iff (s := settingsCode settings) (by decide)]
  have hclear : '[' ∉ trimRight (settingsCode settings) := by
    rw [mem_trimRight_iff (by decide)]
    intro hmem
    have := mem_of_mem_codeFrom hmem
    simp_all
  generalize trimRight (settingsCode settings) = code at hclear ⊢
  by_cases hbracket : ']' ∈ code
  case pos =>
    obtain ⟨entry, rest, token, hfirst, hspoilt, hinline, hne⟩ := Draft.settings_behind_mark hbracket hclear
    rw [hinline]
    exact ⟨fun _ => ⟨entry, rest, token, hfirst, hspoilt, rfl⟩, fun hsame => absurd hsame.1 hne,
      fun hnone => absurd hbracket hnone.1⟩
  case neg =>
    have hempty : Draft.columnSettings (Draft.settingEntries (some [])) = .empty := rfl
    rw [Draft.upToBracket_behind_mark hbracket, Draft.upToBracket_of_not_mem hbracket, hempty]
    refine ⟨fun h => absurd h hbracket, fun hsame => ⟨hbracket, hsame.1.symm, ?_⟩, fun hnone => ⟨hnone.2.1.symm, ?_⟩⟩
    · rw [← hsame.2]
      exact List.append_nil _
    · rw [hnone.2.2]
      exact List.append_nil _

/-- The draft after the line that opens a table. -/
def shopsOpened : Draft := (Draft.start.step "Table shops \x7b".toList).1

/-- The key in front of the settings of an array of owners is not read, though the column is. -/
theorem array_of_owners_has_no_key : ∃ c : Column,
    (shopsOpened.afterLine (settledLine "owner".toList ("int".toList ++ arrayMark)
      "pk, ref: > users.id".toList)).Gained ⟨"shops", []⟩ "shops" [] c ∧
    c.name = "owner" ∧ c.dataType = "int" ∧ c.settings ≠ ⟨[.primaryKey]⟩ := by
  have hblock : shopsOpened.blocks = [.table ⟨"shops", []⟩ "shops"] := by decide +kernel
  have hname : IsNameWord "owner".toList :=
    ⟨by decide, List.all_iff_forall_prop.1 (by decide +kernel), by decide +kernel,
      verbatim_bare (List.all_iff_forall_prop.1 (by decide +kernel))⟩
  have htype : IsTypeWord "int".toList :=
    ⟨by decide, List.all_iff_forall_prop.1 (by decide +kernel), by decide +kernel⟩
  have hkept : (shopsOpened.afterLine
      (settledLine "owner".toList "int".toList "pk, ref: > users.id".toList)).blocks =
        [.table ⟨"shops", [] ++ [⟨"owner", "int", ⟨[.primaryKey]⟩⟩]⟩ "shops"] := by decide +kernel
  have hlinks : (shopsOpened.afterLine (settledLine "owner".toList ("int".toList ++ arrayMark)
      "pk, ref: > users.id".toList)).links =
        (shopsOpened.afterLine (settledLine "owner".toList "int".toList "pk, ref: > users.id".toList)).links := by
    decide +kernel
  have hshown : ']' ∈ settingsCode "pk, ref: > users.id".toList := by decide +kernel
  have hfree : '[' ∉ "pk, ref: > users.id".toList := by decide +kernel
  obtain ⟨c, hgained, hsame, htyped, -, hiff⟩ := array_mark_spoils_settings hblock hname htype hfree hkept
  exact ⟨c, hgained, hsame, htyped, fun hkey => (hiff.1 ⟨hkey, hlinks⟩).1 hshown⟩

/-- The catalog and the references of a table with one column, on the line given. -/
def readColumn (line : String) : Option Schema := (parse ("Table shops \x7b\n" ++ line ++ "\n\x7d\n")).1

/-- The reference of a column is lost when its type is an array. -/
theorem array_of_owners_refers_to_nobody :
    readColumn "owner int [ref: > users.id]" =
      some ⟨⟨[⟨"shops", [⟨"owner", "int", .empty⟩]⟩], []⟩, [⟨"shops", "owner", "users", "id"⟩]⟩ ∧
    readColumn "owner int[] [ref: > users.id]" =
      some ⟨⟨[⟨"shops", [⟨"owner", "int", ⟨[.extension "] [ref: > users.id"]⟩⟩]⟩], []⟩, []⟩ := by
  decide +kernel

end Dbml
end SeedData
