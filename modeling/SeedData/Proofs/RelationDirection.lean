/-
The direction of a relation. `L > R`, `R < L` and `L - R` are the same reference, if they are one, and
`L <> R` is none, wherever a relation can be written (`Place`) and whether settings follow it or not
(`direction_is_immaterial`). The endpoints are cut out alike in each place because they are taken whole and
their lines are code as they stand (`codeFrom_unmarked`).
-/
import SeedData.Proofs.BraceBelow
import SeedData.Proofs.SameSpelling

namespace SeedData.Dbml

open Text

variable {s x y left right symbol tail : List Char} {c : Char}

/-! ## Lines without comments -/

/-- Text with nothing in it that starts a comment or a long string. -/
structure Unmarked (s : List Char) : Prop where
  lineComment : ¬ ['/', '/'] <:+: s
  comment : ¬ ['/', '*'] <:+: s
  longString : ¬ ['\'', '\'', '\''] <:+: s

theorem prefix_of_append_cons {needle : List Char} (hc : c ∉ needle) (h : needle <+: x ++ c :: y) :
    needle <+: x := by
  rcases List.prefix_or_prefix_of_prefix h (List.prefix_append x (c :: y)) with h' | ⟨rest, rfl⟩
  · exact h'
  · have hrest := (List.prefix_append_right_inj x).1 h
    cases rest with
    | nil => simp
    | cons d rest =>
      obtain ⟨rfl, -⟩ := List.cons_prefix_cons.1 hrest
      exact absurd (by simp) hc

/-- What is in two texts with a character in between that it does not have is in one of the two. -/
theorem infix_of_append_cons {needle : List Char} (hc : c ∉ needle) (h : needle <:+: x ++ c :: y) :
    needle <:+: x ∨ needle <:+: y := by
  induction x with
  | nil =>
    rcases List.infix_cons_iff.1 h with h | h
    · exact .inl (prefix_of_append_cons (x := []) hc h).isInfix
    · exact .inr h
  | cons d x ih =>
    rcases List.infix_cons_iff.1 h with h | h
    · exact .inl (prefix_of_append_cons (x := d :: x) hc h).isInfix
    · exact (ih h).imp_left fun h => h.trans (List.suffix_cons d x).isInfix

namespace Unmarked

theorem append_cons (hx : Unmarked x) (hy : Unmarked y) (hc : c ∉ codeMarks) : Unmarked (x ++ c :: y) := by
  simp only [codeMarks, List.mem_cons, List.not_mem_nil, or_false, not_or] at hc
  constructor
  · exact fun h => (infix_of_append_cons (by simp [hc]) h).elim hx.lineComment hy.lineComment
  · exact fun h => (infix_of_append_cons (by simp [hc]) h).elim hx.comment hy.comment
  · exact fun h => (infix_of_append_cons (by simp [hc]) h).elim hx.longString hy.longString

theorem of_cons (h : Unmarked (c :: s)) : Unmarked s where
  lineComment hs := h.lineComment (hs.trans (List.suffix_cons c s).isInfix)
  comment hs := h.comment (hs.trans (List.suffix_cons c s).isInfix)
  longString hs := h.longString (hs.trans (List.suffix_cons c s).isInfix)

theorem nil : Unmarked [] := ⟨by decide, by decide, by decide⟩

end Unmarked

/-- Inside and outside quotations, text without marks is code as it stands. -/
theorem codeFrom_unmarked (h : Unmarked s) {mode : Mode} (hmode : mode = .code ∨ ∃ q, mode = .quote q) :
    codeFrom mode s = (s, .code) := by
  induction s generalizing mode with
  | nil => rcases hmode with rfl | ⟨q, rfl⟩ <;> rfl
  | cons c s ih =>
    rcases hmode with rfl | ⟨q, rfl⟩
    · rw [codeFrom, ih h.of_cons]
      · by_cases hquote : isQuote c <;> simp [hquote]
      · rintro r rfl rfl
        exact h.lineComment ⟨[], r, rfl⟩
      · rintro r rfl rfl
        exact h.comment ⟨[], r, rfl⟩
      · rintro r rfl rfl
        exact h.longString ⟨[], r, rfl⟩
    · rw [codeFrom, ih h.of_cons]
      by_cases hq : c = q <;> simp [hq]

/-! ## Places -/

/-- A place where a relation can be written: a line at top level, with or without a name, a line of a block of
relations, or a line of a table. -/
inductive Place where
  | topLevel
  | named (name : List Char)
  | inBlock
  | inTable

/-- What stands before the relation on its line. -/
def Place.opening : Place → List Char
  | .topLevel | .inTable => ['R', 'e', 'f', ':', ' ']
  | .named name => ['R', 'e', 'f'] ++ ' ' :: (name ++ [':', ' '])
  | .inBlock => []

/-- A name of a relation ends before the first colon or brace outside quotations, and no comment is in it. -/
structure IsRelationName (name : List Char) : Prop where
  unmarked : Unmarked name
  whole : ∀ c ∈ outside none name, endsHeader c = false
  closed : name.foldl quoteAfter none = none

/-- The draft is where the place is. -/
def Place.IsAt (d : Draft) : Place → Prop
  | .topLevel => d.blocks = []
  | .named name => d.blocks = [] ∧ IsRelationName name
  | .inBlock => ∃ outer, d.blocks = .references :: outer
  | .inTable => ∃ t spelled outer, d.blocks = .table t spelled :: outer

/-- An endpoint that is code as it stands in any of the places. -/
structure IsPlainEndpoint (s : List Char) : Prop extends IsEndpointText s where
  unmarked : Unmarked s
  unbraced : '\x7b' ∉ s ∧ '\x7d' ∉ s

/-- Two endpoints with a mark between them. -/
def spell (left symbol right : List Char) : List Char := left ++ ' ' :: (symbol ++ ' ' :: right)

/-- The three ways to write that the left endpoint is the child. -/
def directions (left right : List Char) : List (List Char) :=
  [spell left ['>'] right, spell right ['<'] left, spell left ['-'] right]

/-- Nothing, or settings in square brackets, if no comment and no long string takes them from the line. -/
def IsTail (line tail : List Char) : Prop :=
  tail = [] ∨ (∃ settings, tail = ' ' :: '[' :: (settings ++ [']'])) ∧
    codeFrom .code (line ++ tail) = (line ++ tail, .code)

/-! ## Relations -/

/-- The reference from one endpoint to the other, if both are columns of tables. -/
def linkBetween? (left right : List Char) : Option Link := do return ⟨← endpoint? left, ← endpoint? right⟩

theorem IsTail.settings {line : List Char} (h : IsTail line tail) :
    (∀ c ∈ tail.head?, isBlank c = true) ∧ isSettingsTail tail = true := by
  rcases h with rfl | ⟨⟨settings, rfl⟩, -⟩
  · exact ⟨by simp, rfl⟩
  · constructor
    · rintro c ⟨⟩
      decide
    · have htrim : trim (' ' :: '[' :: (settings ++ [']'])) = '[' :: (settings ++ [']']) := by
        rw [trim_blank_cons (by decide)]
        refine trim_eq_self ?_ ?_
        · rintro c ⟨⟩
          decide
        · rw [← List.cons_append, List.getLast?_concat]
          rintro c ⟨⟩
          decide
      simp [isSettingsTail, htrim]

/-- What is spelled with an endpoint at its end does not end with a blank, nor do settings. -/
theorem IsTail.last {line : List Char} (h : IsTail line tail) (hlast : ∀ c ∈ s.getLast?, isBlank c = false) :
    ∀ c ∈ (s ++ tail).getLast?, isBlank c = false := by
  rcases h with rfl | ⟨⟨settings, rfl⟩, -⟩
  · rwa [List.append_nil]
  · have hsame : s ++ ' ' :: '[' :: (settings ++ [']']) = (s ++ ' ' :: '[' :: settings) ++ [']'] := by simp
    rw [hsame, List.getLast?_concat]
    rintro c ⟨⟩
    decide

/-- Settings behind a line are a tail of it if there is nothing in both that starts a comment or a long string. -/
theorem isTail_of_unmarked {line settings : List Char} (hline : Unmarked line) (hsettings : Unmarked settings) :
    IsTail line (' ' :: '[' :: (settings ++ [']'])) := by
  have hclosed := hsettings.append_cons Unmarked.nil (c := ']') (by decide)
  have hopened := Unmarked.nil.append_cons hclosed (c := '[') (by decide)
  exact .inr ⟨⟨settings, rfl⟩, codeFrom_unmarked (hline.append_cons hopened (by decide)) (.inl rfl)⟩

theorem relationLink?_congr (h : trimLeft x = trimLeft y) : Draft.relationLink? x = Draft.relationLink? y := by
  rw [Draft.relationLink?, Draft.relationLink?, relation?, relation?, h]

/-- What two endpoints with a mark between them are as a reference. -/
theorem relationLink?_spell {mark : Mark} {line : List Char} (hleft : IsEndpointText left)
    (hsymbol : (symbol, mark) ∈ marks) (hright : IsEndpointText right) (htail : IsTail line tail) :
    Draft.relationLink? (spell left symbol right ++ tail) =
      (do link? (← endpoint? left) mark (← endpoint? right)) := by
  have hnone : ∀ c ∈ ([] : List Char), isBlank c = true := by simp
  have hrelation := relation?_spelled hnone hleft hsymbol hright htail.settings.1 htail.settings.2
  have htext : spell left symbol right ++ tail = [] ++ (left ++ ' ' :: (symbol ++ ' ' :: (right ++ tail))) := by
    simp [spell]
  rw [Draft.relationLink?, htext, hrelation]
  rfl

/-- The three spellings are the same reference. -/
theorem relationLink?_of_mem_directions {form line : List Char} (hleft : IsEndpointText left)
    (hright : IsEndpointText right) (hform : form ∈ directions left right) (htail : IsTail line tail) :
    Draft.relationLink? (form ++ tail) = linkBetween? left right := by
  simp only [directions, List.mem_cons, List.not_mem_nil, or_false] at hform
  rcases hform with rfl | rfl | rfl
  · rw [relationLink?_spell hleft (by decide : (['>'], Mark.leftIsChild) ∈ marks) hright htail]
    rfl
  · rw [relationLink?_spell hright (by decide : (['<'], Mark.rightIsChild) ∈ marks) hleft htail]
    cases hl : endpoint? left <;> cases hr : endpoint? right <;> simp [linkBetween?, link?, hl, hr]
  · rw [relationLink?_spell hleft (by decide : (['-'], Mark.leftIsChild) ∈ marks) hright htail]
    rfl

theorem relationLink?_of_manyToMany {line : List Char} (hleft : IsEndpointText left) (hright : IsEndpointText right)
    (htail : IsTail line tail) : Draft.relationLink? (spell left ['<', '>'] right ++ tail) = none := by
  rw [relationLink?_spell hleft (by decide : (['<', '>'], Mark.noChild) ∈ marks) hright htail]
  cases endpoint? left <;> cases endpoint? right <;> rfl

/-! ## Lines with relations -/

namespace Draft

variable {d : Draft} {place : Place} {r : List Char}

/-- In each of the places, the line is cut so that the relation is left. -/
theorem lineIn_of_place (hplace : place.IsAt d) (hhead : r.head? ≠ some '\x7d') :
    ∃ text, trimLeft text = trimLeft r ∧ d.lineIn (place.opening ++ r) = (d.relation text, none) := by
  cases place with
  | topLevel =>
    refine ⟨' ' :: r, rfl, ?_⟩
    have hcolon : d.refDirective (':' :: ' ' :: r) = (d.relation (' ' :: r), none) := by
      rw [refDirective, breakOutside_here (by decide) (by decide)]
      rfl
    rw [lineIn, hplace]
    exact (topLevelLine_of_ref rfl).trans hcolon
  | named name =>
    refine ⟨' ' :: r, rfl, ?_⟩
    obtain ⟨htop, hname⟩ := hplace
    have hkeyword : leadingKeyword ((Place.named name).opening ++ r) = "ref".toList := by
      rw [Place.opening, List.append_assoc]
      exact leadingKeyword_append (by decide) ['R', 'e', 'f'] _
    have hdrop : ((Place.named name).opening ++ r).drop 3 = (' ' :: name) ++ ':' :: ' ' :: r := by
      simp [Place.opening]
    have hwhole : ∀ c ∈ outside none (' ' :: name), endsHeader c = false :=
      List.forall_mem_cons.2 ⟨by decide, hname.whole⟩
    have hcut : breakOutside endsHeader none ((' ' :: name) ++ ':' :: ' ' :: r) = (' ' :: name, ':' :: ' ' :: r) :=
      breakOutside_at hwhole hname.closed (by decide) (by decide) _
    have hcolon : d.refDirective ((' ' :: name) ++ ':' :: ' ' :: r) = (d.relation (' ' :: r), none) := by
      rw [refDirective, ← endsHeader_eq, hcut]
      rfl
    rw [lineIn, htop]
    dsimp only
    rw [topLevelLine_of_ref hkeyword, hdrop, hcolon]
  | inBlock =>
    obtain ⟨outer, hblocks⟩ := hplace
    refine ⟨r, rfl, ?_⟩
    rw [lineIn, hblocks]
    exact if_neg hhead
  | inTable =>
    obtain ⟨t, spelled, outer, hblocks⟩ := hplace
    refine ⟨' ' :: r, rfl, ?_⟩
    have hafter : afterOutside? (· == ':') (Place.inTable.opening ++ r) = some (' ' :: r) := by
      have hcut : breakOutside (· == ':') none (['R', 'e', 'f'] ++ ':' :: ' ' :: r) =
          (['R', 'e', 'f'], ':' :: ' ' :: r) :=
        breakOutside_at (List.all_iff_forall_prop.1 (by decide)) (by decide) (by decide) (by decide) _
      have hline : Place.inTable.opening ++ r = ['R', 'e', 'f'] ++ ':' :: ' ' :: r := rfl
      rw [afterOutside?, hline, hcut]
    have hkeyword : leadingKeyword (Place.inTable.opening ++ r) = "ref".toList := rfl
    have hdirective : isDirective "ref".toList (Place.inTable.opening ++ r) = true := rfl
    rw [lineIn, hblocks]
    dsimp only
    rw [tableLine, hkeyword, if_neg (by simp [Place.opening]), if_neg fun h => absurd h.1 (by decide),
      if_neg fun h => absurd h.1 (by decide), if_pos ⟨rfl, hdirective⟩, hafter]

/-- The draft with more references, and without the header that waited. -/
def withLinks (d : Draft) (links : List Link) : Draft := { d with header := none, links := d.links ++ links }

/-- A line with a relation adds the reference that it makes. -/
theorem read_of_place (hplace : place.IsAt d) (hne : r ≠ [])
    (hhead : ∀ c ∈ r.head?, isBlank c = false ∧ c ≠ '\x7b' ∧ c ≠ '\x7d')
    (hlast : ∀ c ∈ r.getLast?, isBlank c = false) :
    (d.read (place.opening ++ r)).silent = (d.withLinks (relationLink? r).toList).silent := by
  have hopening : ∀ c ∈ (place.opening ++ r).head?, isBlank c = false ∧ c ≠ '\x7b' := by
    cases place with
    | inBlock => exact fun c hc => ⟨(hhead c hc).1, (hhead c hc).2.1⟩
    | topLevel | named | inTable =>
      rintro c ⟨⟩
      decide
  have htrim : trim (place.opening ++ r) = place.opening ++ r :=
    trim_eq_self (fun c hc => (hopening c hc).1) (by rwa [List.getLast?_append_of_ne_nil _ hne])
  cases hline : place.opening ++ r with
  | nil => exact absurd (List.append_eq_nil_iff.1 hline).2 hne
  | cons c rest =>
    rw [hline] at htrim hopening
    have hstep := step_silent (d := d) htrim (.inr (hopening c rfl).2)
    have hplace' : place.IsAt ({ d with header := none } : Draft) := hplace
    obtain ⟨text, htext, hrelation⟩ := lineIn_of_place hplace' fun hclose => (hhead '\x7d' hclose).2.2 rfl
    rw [← hline, hrelation] at hstep
    rw [read_eq_whole, ← hline, whole_eq_of_silent hstep, ← relationLink?_congr htext]
    exact relation_silent _ text

end Draft

theorem unmarked_symbol {mark : Mark} (h : (symbol, mark) ∈ marks) : Unmarked symbol := by
  simp only [marks, List.mem_cons, Prod.mk.injEq, List.not_mem_nil, or_false] at h
  rcases h with ⟨rfl, -⟩ | ⟨rfl, -⟩ | ⟨rfl, -⟩ | ⟨rfl, -⟩ <;> exact ⟨by decide, by decide, by decide⟩

/-- A line with a relation between plain endpoints is code as it stands. -/
theorem unmarked_line {d : Draft} {place : Place} {mark : Mark} (hplace : place.IsAt d) (hleft : Unmarked left)
    (hsymbol : (symbol, mark) ∈ marks) (hright : Unmarked right) :
    Unmarked (place.opening ++ spell left symbol right) := by
  have hspell : Unmarked (spell left symbol right) :=
    hleft.append_cons ((unmarked_symbol hsymbol).append_cons hright (by decide)) (by decide)
  cases place with
  | inBlock => exact hspell
  | topLevel | inTable =>
    have hopening : Unmarked ['R', 'e', 'f', ':'] := ⟨by decide, by decide, by decide⟩
    exact hopening.append_cons hspell (by decide)
  | named name =>
    have hkeyword : Unmarked ['R', 'e', 'f'] := ⟨by decide, by decide, by decide⟩
    have hname := hplace.2.unmarked.append_cons (Unmarked.nil.append_cons hspell (c := ' ') (by decide)) (c := ':')
      (by decide)
    simpa [Place.opening] using hkeyword.append_cons hname (c := ' ') (by decide)

/-- Where lines with a relation between plain endpoints lead. -/
theorem parse_of_relation {before after : List (List Char)} {place : Place} {mark : Mark} {text : String}
    (hcarry : carryAfter before = .code) (hplace : place.IsAt (draftAfter before)) (hleft : IsPlainEndpoint left)
    (hsymbol : (symbol, mark) ∈ marks) (hright : IsPlainEndpoint right)
    (htail : IsTail (place.opening ++ spell left symbol right) tail)
    (hlines : lines text.toList = before ++ (place.opening ++ spell left symbol right ++ tail) :: after) :
    (parse text).1 = ((draftAfter before).withLinks
      (Draft.relationLink? (spell left symbol right ++ tail)).toList).schemaAfter .code after := by
  have hcode : codeFrom .code (place.opening ++ spell left symbol right ++ tail) =
      (place.opening ++ spell left symbol right ++ tail, .code) := by
    rcases htail with rfl | ⟨-, hcode⟩
    · rw [List.append_nil]
      exact codeFrom_unmarked (unmarked_line hplace hleft.unmarked hsymbol hright.unmarked) (.inl rfl)
    · exact hcode
  have hhead : ∀ c ∈ (spell left symbol right ++ tail).head?, isBlank c = false ∧ c ≠ '\x7b' ∧ c ≠ '\x7d' := by
    rw [spell, List.append_assoc, List.head?_append_of_ne_nil _ hleft.ne_nil]
    intro c hc
    have hmem := List.mem_of_mem_head? hc
    exact ⟨hleft.head c hc, fun h => hleft.unbraced.1 (h ▸ hmem), fun h => hleft.unbraced.2 (h ▸ hmem)⟩
  have hlast : ∀ c ∈ (spell left symbol right ++ tail).getLast?, isBlank c = false := by
    refine htail.last ?_
    have hspell : spell left symbol right = (left ++ ' ' :: (symbol ++ [' '])) ++ right := by simp [spell]
    rw [hspell, List.getLast?_append_of_ne_nil _ hright.ne_nil]
    exact hright.last
  have hread := Draft.read_of_place hplace (by simp [spell]) hhead hlast
  rw [parse_of_lines hlines, hcarry, Draft.schemaAfter_cons, Carry.mode, hcode, List.append_assoc]
  exact Draft.schemaAfter_congr hread .code after

/-- **The direction of a relation is normalized.** Wherever a relation can be written, the three spellings
`L > R`, `R < L` and `L - R` add the same reference, from `L` to `R`, or none alike, and `L <> R` adds none.
Settings in square brackets behind them change nothing. -/
theorem direction_is_immaterial {before after : List (List Char)} {place : Place}
    (hcarry : carryAfter before = .code) (hplace : place.IsAt (draftAfter before)) (hleft : IsPlainEndpoint left)
    (hright : IsPlainEndpoint right) {form : List Char} (htail : IsTail (place.opening ++ form) tail) {text : String}
    (hlines : lines text.toList = before ++ (place.opening ++ form ++ tail) :: after) :
    (form ∈ directions left right → (parse text).1 =
        ((draftAfter before).withLinks (linkBetween? left right).toList).schemaAfter .code after) ∧
      (form = spell left ['<', '>'] right →
        (parse text).1 = ((draftAfter before).withLinks []).schemaAfter .code after) := by
  constructor
  · intro hform
    rw [← relationLink?_of_mem_directions hleft.toIsEndpointText hright.toIsEndpointText hform htail]
    simp only [directions, List.mem_cons, List.not_mem_nil, or_false] at hform
    rcases hform with rfl | rfl | rfl
    · exact parse_of_relation hcarry hplace hleft (by decide : (['>'], Mark.leftIsChild) ∈ marks) hright htail hlines
    · exact parse_of_relation hcarry hplace hright (by decide : (['<'], Mark.rightIsChild) ∈ marks) hleft htail hlines
    · exact parse_of_relation hcarry hplace hleft (by decide : (['-'], Mark.leftIsChild) ∈ marks) hright htail hlines
  · rintro rfl
    rw [parse_of_relation hcarry hplace hleft (by decide : (['<', '>'], Mark.noChild) ∈ marks) hright htail hlines,
      relationLink?_of_manyToMany hleft.toIsEndpointText hright.toIsEndpointText htail]
    rfl

/-- The lines of a table of shops, each with an owner. -/
def shopLines : List (List Char) := ["Table shops \x7b".toList, "owner int".toList, "\x7d".toList]

/-- The owner of a shop is the child whichever endpoint comes first, with settings and without. -/
theorem owner_is_child_either_way :
    (parse "Table shops \x7b\nowner int\n\x7d\nRef fk: users.id < shops.owner [delete: cascade]").1 =
        (parse "Table shops \x7b\nowner int\n\x7d\nRef fk: shops.owner > users.id").1 ∧
      (parse "Table shops \x7b\nowner int\n\x7d\nRef fk: shops.owner > users.id").1 =
        some ⟨⟨[⟨"shops", [⟨"owner", "int", .empty⟩]⟩], []⟩, [⟨"shops", "owner", "users", "id"⟩]⟩ := by
  have hname : IsRelationName "fk".toList :=
    ⟨⟨by decide, by decide, by decide⟩, List.all_iff_forall_prop.1 (by decide +kernel), by decide⟩
  have hplace : (Place.named "fk".toList).IsAt (draftAfter shopLines) := ⟨by decide +kernel, hname⟩
  have hleft : IsPlainEndpoint "shops.owner".toList :=
    ⟨⟨by decide, by decide +kernel⟩, ⟨by decide, by decide, by decide⟩, by decide⟩
  have hright : IsPlainEndpoint "users.id".toList :=
    ⟨⟨by decide, by decide +kernel⟩, ⟨by decide, by decide, by decide⟩, by decide⟩
  have hlines : lines "Table shops \x7b\nowner int\n\x7d\nRef fk: shops.owner > users.id".toList = shopLines ++
      ((Place.named "fk".toList).opening ++ spell "shops.owner".toList ['>'] "users.id".toList ++ []) :: [] := by
    decide +kernel
  have hlines' : lines
      "Table shops \x7b\nowner int\n\x7d\nRef fk: users.id < shops.owner [delete: cascade]".toList = shopLines ++
      ((Place.named "fk".toList).opening ++ spell "users.id".toList ['<'] "shops.owner".toList ++
        ' ' :: '[' :: ("delete: cascade".toList ++ [']'])) :: [] := by
    decide +kernel
  have hcascade : Unmarked "delete: cascade".toList := ⟨by decide, by decide, by decide⟩
  have htail := isTail_of_unmarked
    (unmarked_line hplace hright.unmarked (by decide : (['<'], Mark.rightIsChild) ∈ marks) hleft.unmarked) hcascade
  have hplain := (direction_is_immaterial (by decide +kernel) hplace hleft hright (.inl rfl) hlines).1
    (by simp [directions])
  have hturned := (direction_is_immaterial (by decide +kernel) hplace hleft hright htail hlines').1
    (by simp [directions])
  refine ⟨hturned.trans hplain.symm, hplain.trans ?_⟩
  decide +kernel

end SeedData.Dbml
