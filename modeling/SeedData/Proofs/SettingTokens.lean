/-
Settings and their tokens. A token in lower case is a known key with a value, a known flag, or an unknown
setting that is the token itself (`of_ofToken`). The token that a setting writes is read as that setting
again where the text it carries is not in quotes (`token_reads_back_iff`): reading takes a pair of quotes
off, and writing does not put one on.
-/
import SeedData.Proofs.ArrayColumns

namespace SeedData

namespace Text

variable {s x y : List Char}

/-- Whether a text is in a pair of like quotes. -/
def inQuotes : List Char → Bool
  | q :: r => isQuote q && r.getLast? == some q
  | [] => false

theorem unquote_congr (h : trim x = trim y) : unquote x = unquote y := by rw [unquote, unquote, h]

theorem trim_trimRight (s : List Char) : trim (trimRight s) = trim s := by
  obtain ⟨blanks, hs, hblank⟩ := trimRight_spec s
  have htrim := Dbml.trim_append_blank hblank (trimRight s)
  rwa [← hs, eq_comm] at htrim

/-- There is nothing to take off a text that is trimmed, unless it is in quotes. -/
theorem unquote_eq_self_iff (h : trim s = s) : unquote s = s ↔ inQuotes s = false := by
  rw [unquote, h]
  cases s with
  | nil => simp [inQuotes]
  | cons q r =>
    dsimp only
    split
    · rename_i hquoted
      have hshort := trim_length_le r.dropLast
      rw [List.length_dropLast] at hshort
      refine iff_of_false (fun hsame => ?_) (by simpa [inQuotes] using hquoted)
      rw [hsame, List.length_cons] at hshort
      omega
    · rename_i hbare
      simpa [inQuotes] using hbare

end Text

namespace Setting

open Text

variable {s : Setting} {token key value : List Char}

/-- The text that a setting carries: a value, a remark or an unknown token. -/
def text : Setting → String
  | default value => value
  | note text => text
  | extension token => token
  | primaryKey | notNull | null | unique | increment => ""

/-- The settings that stand for themselves, with the words they are written in. -/
def flagWords : List (List Char × Setting) :=
  [("pk".toList, primaryKey), ("primary key".toList, primaryKey), ("not null".toList, notNull),
    ("null".toList, null), ("unique".toList, unique), ("increment".toList, increment)]

/-! ## Tokens in lower case -/

theorem mem_flagWords_of_flag? {words : List Char} (h : flag? words = some s) : (words, s) ∈ flagWords := by
  unfold flag? at h
  split at h
  · rename_i hwords
    cases h
    rcases hwords with rfl | rfl <;> decide
  · repeat' split at h
    all_goals cases h
    all_goals
      subst words
      decide

theorem of_keyed? (h : keyed? key value = some s) :
    trim key = "default".toList ∧ s = default (String.ofList (unquote value)) ∨
      trim key = "note".toList ∧ s = note (String.ofList (unquote value)) := by
  unfold keyed? at h
  dsimp only at h
  split at h
  · rename_i hkey
    exact .inl ⟨hkey, (Option.some.inj h).symm⟩
  · split at h
    · rename_i hkey
      exact .inr ⟨hkey, (Option.some.inj h).symm⟩
    · cases h

/-- What a token is read as: a known key with a value, a known flag, or an unknown setting. -/
theorem of_ofToken (h : ofToken token = s) :
    (∃ key value, token = key ++ ':' :: value ∧ keyed? key value = some s) ∨
      flag? (collapse token) = some s ∨ s = extension (String.ofList token) := by
  unfold ofToken at h
  rw [List.span_eq_takeWhile_dropWhile] at h
  have htoken := (List.takeWhile_append_dropWhile (p := fun c => decide (c ≠ ':')) (l := token)).symm
  have hcolon := List.head?_dropWhile_not (fun c => decide (c ≠ ':')) token
  dsimp only at h
  split at h
  · rename_i hkeyed
    split at hkeyed
    · cases hkeyed
    · rename_i c value hrest
      rw [hrest] at hcolon htoken
      obtain rfl : c = ':' := by simpa using hcolon
      exact .inl ⟨_, _, htoken, h ▸ hkeyed⟩
  · cases hflag : flag? (collapse token) with
    | some s' =>
      rw [hflag, Option.getD_some] at h
      exact .inr (.inl (h ▸ rfl))
    | none =>
      rw [hflag, Option.getD_none] at h
      exact .inr (.inr h.symm)

theorem ofToken_keyed (hkey : ∀ c ∈ key, c ≠ ':') (h : keyed? key value = some s) :
    ofToken (key ++ ':' :: value) = s := by
  have hall : ∀ c ∈ key, decide (c ≠ ':') = true := fun c hc => decide_eq_true (hkey c hc)
  unfold ofToken
  rw [List.span_eq_takeWhile_dropWhile, List.takeWhile_append_of_pos hall, List.dropWhile_append_of_pos hall]
  simp [h]

/-! ## Tokens that are written -/

/-- A token in lower case that is not in quotes is read as it stands. -/
theorem parseChars_low (hlow : ∀ c ∈ token, IsLow c) (htrim : trim token = token) (hne : token ≠ [])
    (hbare : inQuotes token = false) : parseChars token = some (ofToken token) := by
  rw [parseChars, (unquote_eq_self_iff htrim).2 hbare, lowercase_of_low hlow]
  simp [hne]

/-- A key and a value, with a space in front of it, are read as the key's setting of the value without
quotes. -/
theorem parseChars_keyed (hkey : ∀ c ∈ key, c ≠ ':' ∧ isBlank c = false ∧ isQuote c = false ∧ IsLow c)
    (hvalue : ∀ c ∈ value, IsLow c) (h : keyed? key value = some s) :
    parseChars (key ++ ':' :: ' ' :: value) = some s := by
  have htrim : trim (key ++ ':' :: ' ' :: value) = key ++ ':' :: trimRight (' ' :: value) := by
    rw [trim_around (by decide), trimLeft_eq_self fun c hc => (hkey c (List.mem_of_mem_head? hc)).2.1]
  have hbare : inQuotes (key ++ ':' :: trimRight (' ' :: value)) = false := by
    cases key with
    | nil => rfl
    | cons c key => simp [inQuotes, (hkey c List.mem_cons_self).2.2.1]
  have hlow : ∀ c ∈ key ++ ':' :: trimRight (' ' :: value), IsLow c := by
    intro c hc
    rcases List.mem_append.1 hc with hc | hc
    · exact (hkey c hc).2.2.2
    · rcases List.mem_cons.1 hc with rfl | hc
      · decide
      · obtain ⟨blanks, hs, -⟩ := trimRight_spec (' ' :: value)
        have hmem : c ∈ ' ' :: value := hs ▸ List.mem_append_left blanks hc
        rcases List.mem_cons.1 hmem with rfl | hc
        · decide
        · exact hvalue c hc
  have hsame : unquote (trimRight (' ' :: value)) = unquote value :=
    unquote_congr ((trim_trimRight _).trans (trim_blank_cons (by decide) value))
  have hkeyed : keyed? key (trimRight (' ' :: value)) = some s := by
    rw [← h, keyed?, keyed?, hsame]
  have hparse := parseChars_low hlow (by rw [← htrim, trim_trim]) (by simp) hbare
  rw [ofToken_keyed (fun c hc => (hkey c hc).1) hkeyed, ← htrim] at hparse
  rw [← hparse, parseChars, parseChars, unquote_congr (trim_trim _)]

/-- What a token with one of the keys in front is read as, by the value behind the key. -/
theorem parseChars_keyed_iff {make : String → Setting} (hmake : Function.Injective make)
    (hkey : ∀ c ∈ key, c ≠ ':' ∧ isBlank c = false ∧ isQuote c = false ∧ IsLow c)
    (hkeyed : ∀ value, keyed? key value = some (make (String.ofList (unquote value))))
    (hvalue : ∀ c ∈ value, IsLow c) (htrim : trim value = value) :
    parseChars (key ++ ':' :: ' ' :: value) = some (make (String.ofList value)) ↔ inQuotes value = false := by
  rw [parseChars_keyed hkey hvalue (hkeyed value), Option.some_inj, hmake.eq_iff, String.ofList_inj,
    unquote_eq_self_iff htrim]

/-- What an unknown setting's token is read as. -/
theorem parseChars_extension_iff (hlow : ∀ c ∈ token, IsLow c) (htrim : trim token = token) (hne : token ≠ [])
    (h : ofToken token = extension (String.ofList token)) :
    parseChars token = some (extension (String.ofList token)) ↔ inQuotes token = false := by
  refine ⟨fun hparse => ?_, fun hbare => h ▸ parseChars_low hlow htrim hne hbare⟩
  unfold parseChars at hparse
  dsimp only at hparse
  have hinner : ∀ c ∈ unquote token, IsLow c := fun c hc => hlow c (mem_of_mem_unquote hc)
  rw [lowercase_of_low hinner] at hparse
  split at hparse
  · cases hparse
  · have htext := eq_of_ofToken_extension (Option.some.inj hparse)
    exact (unquote_eq_self_iff htrim).1 (String.ofList_inj.1 htext).symm

theorem parse?_default_iff (hvalue : ∀ c ∈ value, IsLow c) (htrim : trim value = value) :
    parse? (default (String.ofList value)).token = some (default (String.ofList value)) ↔
      inQuotes value = false := by
  have htoken : (default (String.ofList value)).token.toList = "default".toList ++ ':' :: ' ' :: value := by
    simp [token]
  rw [parse?, htoken]
  exact parseChars_keyed_iff (fun _ _ => default.inj) (List.all_iff_forall_prop.1 (by decide +kernel))
    (fun _ => rfl) hvalue htrim

theorem parse?_note_iff (hvalue : ∀ c ∈ value, IsLow c) (htrim : trim value = value) :
    parse? (note (String.ofList value)).token = some (note (String.ofList value)) ↔ inQuotes value = false := by
  have htoken : (note (String.ofList value)).token.toList = "note".toList ++ ':' :: ' ' :: value := by
    simp [token]
  rw [parse?, htoken]
  exact parseChars_keyed_iff (fun _ _ => note.inj) (List.all_iff_forall_prop.1 (by decide +kernel))
    (fun _ => rfl) hvalue htrim

/-- A known flag is read from its token, and carries no text. -/
theorem parse?_flag : ∀ flag ∈ flagWords, parse? flag.2.token = some flag.2 ∧ flag.2.text = "" := by
  decide +kernel

/-- The token of a setting is read as the setting exactly if the text it carries is not in quotes. -/
theorem parse?_token_iff {written : String} (h : parse? written = some s) :
    parse? s.token = some s ↔ inQuotes s.text.toList = false := by
  unfold parse? parseChars at h
  dsimp only at h
  split at h
  · cases h
  · rename_i hne
    have hlow : ∀ c ∈ lowercase (unquote written.toList), IsLow c := fun c hc => isLow_of_mem_lowercase hc
    have htrim : trim (lowercase (unquote written.toList)) = lowercase (unquote written.toList) :=
      trim_lowercase (trim_unquote _)
    generalize lowercase (unquote written.toList) = low at h hne hlow htrim
    have hs := Option.some.inj h
    rcases of_ofToken hs with ⟨key, value, rfl, hkeyed⟩ | hflag | rfl
    · have hvalue : ∀ c ∈ unquote value, IsLow c := fun c hc =>
        hlow c (List.mem_append_right key (List.mem_cons_of_mem ':' (mem_of_mem_unquote hc)))
      rcases of_keyed? hkeyed with ⟨-, rfl⟩ | ⟨-, rfl⟩
      · rw [parse?_default_iff hvalue (trim_unquote value), text, String.toList_ofList]
      · rw [parse?_note_iff hvalue (trim_unquote value), text, String.toList_ofList]
    · obtain ⟨hparse, htext⟩ := parse?_flag _ (mem_flagWords_of_flag? hflag)
      exact iff_of_true hparse (htext ▸ rfl)
    · rw [parse?, token, text, String.toList_ofList]
      exact parseChars_extension_iff hlow htrim (by simpa using hne) hs

end Setting

namespace Settings

open Text

/-! ## Lists of tokens -/

/-- Every setting of a text was read from a token. -/
theorem exists_parse?_of_mem_parse {raw : String} {s : Setting} (h : s ∈ (parse raw).toList) :
    ∃ written, Setting.parse? written = some s := by
  obtain ⟨piece, -, hparse⟩ := List.mem_filterMap.1 (mem_ofList.1 h)
  exact ⟨String.ofList piece, by rw [Setting.parse?, String.toList_ofList, hparse]⟩

/-- **A setting is read back from the token that it writes exactly if the text it carries is not in
quotes.** So the settings of a text contain the tokens that they write, but for those with a text in
quotes, of which reading takes one pair off. -/
theorem token_reads_back_iff (raw : String) :
    (∀ s, Setting.parse? raw = some s →
      (Setting.parse? s.token = some s ↔ inQuotes s.text.toList = false)) ∧
    ∀ s ∈ (parse raw).toList, inQuotes s.text.toList = false → (parse raw).containsToken s.token = true := by
  refine ⟨fun s h => Setting.parse?_token_iff h, fun s hs hbare => ?_⟩
  obtain ⟨written, hparse⟩ := exists_parse?_of_mem_parse hs
  rw [containsToken, (Setting.parse?_token_iff hparse).2 hbare]
  exact decide_eq_true hs

/-- A default and a remark are read back from the tokens they write. -/
theorem plain_tokens_read_back :
    Setting.parse? "Default: 'Paid  up'" = some (.default "paid  up") ∧
      Setting.parse? (Setting.default "paid  up").token = some (.default "paid  up") ∧
    (parse "note: 'Mine', PK").toList = [.note "mine", .primaryKey] ∧
      (parse "note: 'Mine', PK").containsToken (Setting.note "mine").token = true := by
  have hdefault : Setting.parse? "Default: 'Paid  up'" = some (.default "paid  up") := by decide +kernel
  have hparse : (parse "note: 'Mine', PK").toList = [.note "mine", .primaryKey] := by decide +kernel
  exact ⟨hdefault, ((token_reads_back_iff _).1 _ hdefault).2 (by decide +kernel), hparse,
    (token_reads_back_iff _).2 _ (hparse ▸ List.mem_cons_self) (by decide +kernel)⟩

/-- A remark that keeps a pair of quotes is not found by the token it writes. -/
theorem quoted_note_is_not_read_back :
    Setting.parse? "note: '\"Quoted\"'" = some (.note "\"quoted\"") ∧
      Setting.parse? (Setting.note "\"quoted\"").token = some (.note "quoted") ∧
    (parse "note: '\"Quoted\"'").tokens = ["note: \"quoted\""] ∧
      (parse "note: '\"Quoted\"'").containsToken "note: \"quoted\"" = false := by
  decide +kernel

end Settings
end SeedData
