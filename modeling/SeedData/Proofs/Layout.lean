/-
Layout says nothing. The draft of a text is made of the code of its lines, cut free of blanks,
and lines without code play no part (`pieces`). Blank lines, blanks around a line, comments at
its end, and what is written inside of comments and long strings leave these as they are
(`Relaid`), and so they leave the schema and all there is to say about it
(`layout_is_immaterial`).
-/
import SeedData.Proofs.SkippedBlocks

namespace SeedData.Dbml

open Text

variable {mode : Mode} {carry : Carry} {line s x : List Char} {c : Char}

/-! ## Where the end of a line is -/

/-- The mode in which the reader of a line comes to its end, given the one it starts in; none
in a comment that ends with the line. -/
def modeAtEnd : Mode → List Char → Option Mode
  | .comment, '*' :: '/' :: r => modeAtEnd .code r
  | .comment, _ :: r => modeAtEnd .comment r
  | .longString, '\'' :: '\'' :: '\'' :: r => modeAtEnd .code r
  | .longString, _ :: r => modeAtEnd .longString r
  | .shortString, '\'' :: '\'' :: '\'' :: r => modeAtEnd .code r
  | .shortString, _ :: r => modeAtEnd .shortString r
  | .quote q, c :: r => modeAtEnd (if c = q then .code else .quote q) r
  | .code, '/' :: '/' :: _ => none
  | .code, '/' :: '*' :: r => modeAtEnd .comment r
  | .code, '\'' :: '\'' :: '\'' :: r =>
    if closesLong r then modeAtEnd .shortString r else some .longString
  | .code, c :: r => modeAtEnd (if isQuote c then .quote c else .code) r
  | mode, [] => some mode

/-- What is open behind a line is what the mode at its end carries over. -/
theorem carry_codeFrom (mode : Mode) (s : List Char) :
    (codeFrom mode s).2 = ((modeAtEnd mode s).map Mode.carry).getD .code := by
  fun_induction modeAtEnd mode s with
  | case11 r hopen => simp [codeFrom, hopen, Mode.carry]
  | case10 r hcloses ih => simpa [codeFrom, hcloses] using ih
  | _ => simp_all [codeFrom]

/-! ## Marks -/

theorem contains_iff {needle s : List Char} : Text.contains needle s = true ↔ needle <:+: s := by
  induction s with
  | nil => simp [Text.contains]
  | cons c s ih => rw [Text.contains, Bool.or_eq_true, List.isPrefixOf_iff_prefix, ih, List.infix_cons_iff]

theorem closesLong_append (h : closesLong s = true) (x : List Char) : closesLong (s ++ x) = true :=
  contains_iff.2 ((contains_iff.1 h).trans (List.prefix_append s x).isInfix)

/-- Blanks behind a text do not end a long string. -/
theorem closesLong_append_blank (hx : ∀ c ∈ x, isBlank c = true) (s : List Char) :
    closesLong (s ++ x) = closesLong s := by
  refine Bool.eq_iff_iff.2 ⟨fun h => ?_, fun h => closesLong_append h x⟩
  obtain ⟨before, after, heq⟩ := contains_iff.1 h
  have hquote : '\'' ∉ x := fun hmem => absurd (hx _ hmem) (by decide)
  have heq' : (before ++ ['\'', '\'']) ++ '\'' :: after = s ++ x := by simpa using heq
  rcases List.append_eq_append_iff.1 heq' with ⟨t, hs, ht⟩ | ⟨t, hb, ht⟩
  · cases t with
    | nil =>
      rw [List.nil_append] at ht
      exact absurd (ht ▸ List.mem_cons_self) hquote
    | cons d t =>
      obtain ⟨rfl, rfl⟩ := List.cons.inj ht
      exact contains_iff.2 ⟨before, t, by simp [hs]⟩
  · exact absurd (ht ▸ List.mem_append_right t List.mem_cons_self) hquote

/-- A long string that does not close runs to the end of the line. -/
theorem codeFrom_longString (h : closesLong s = false) : codeFrom .longString s = ([], .longString) := by
  induction s with
  | nil => rfl
  | cons c s ih =>
    rw [closesLong, Text.contains, Bool.or_eq_false_iff] at h
    rw [codeFrom, ih h.2]
    rintro r rfl rfl
    exact absurd h.1 (by simp)

/-- A comment that does not close runs to the end of the line. -/
theorem codeFrom_comment (h : Text.contains ['*', '/'] s = false) : codeFrom .comment s = ([], .comment) := by
  induction s with
  | nil => rfl
  | cons c s ih =>
    rw [Text.contains, Bool.or_eq_false_iff] at h
    rw [codeFrom, ih h.2]
    rintro r rfl rfl
    exact absurd h.1 (by simp)

/-- The characters that comments and long strings are marked with. -/
def codeMarks : List Char := ['/', '*', '\'']

theorem not_mem_codeMarks_of_isBlank (h : isBlank c = true) : c ∉ codeMarks := by
  intro hmem
  simp only [codeMarks, List.mem_cons, List.not_mem_nil, or_false] at hmem
  rcases hmem with rfl | rfl | rfl <;> exact absurd h (by decide)

theorem cons_of_append {y : List Char} (hx : ∀ c ∈ x.head?, c ∉ codeMarks) (hc : c ∈ codeMarks)
    (h : s ++ x = c :: y) : ∃ r, s = c :: r := by
  cases s with
  | nil =>
    rw [List.nil_append] at h
    subst h
    exact absurd hc (hx c rfl)
  | cons d r =>
    obtain rfl : d = c := (List.cons.inj h).1
    exact ⟨r, rfl⟩

/-- What a line is read as, with more behind it that is read in the mode it ends in. -/
def thenRead (read : List Char × Carry) (x : List Char) : Option Mode → List Char × Carry
  | none => read
  | some m => (read.1 ++ (codeFrom m x).1, (codeFrom m x).2)

theorem thenRead_append (before : List Char) (read : List Char × Carry) (x : List Char)
    (m : Option Mode) : thenRead (before ++ read.1, read.2) x m =
      (before ++ (thenRead read x m).1, (thenRead read x m).2) := by
  cases m with
  | none => rfl
  | some m => simp [thenRead]

/-- What follows a line is read in the mode that the line ends in. -/
theorem codeFrom_append (mode : Mode) (s : List Char) (hx : ∀ c ∈ x.head?, c ∉ codeMarks)
    (hlong : (∀ s, closesLong (s ++ x) = closesLong s) ∨ modeAtEnd mode s ≠ some .longString) :
    codeFrom mode (s ++ x) = thenRead (codeFrom mode s) x (modeAtEnd mode s) := by
  -- A mark of two or three characters does not reach into what follows, which starts with none of them.
  have hmark : ∀ {d : Char} {r y : List Char}, d ∈ codeMarks → r ++ x = d :: y → ∃ r', r = d :: r' :=
    fun hd h => cons_of_append hx hd h
  have hquotes : ∀ {r y : List Char}, r ++ x = '\'' :: '\'' :: y → ∃ r', r = '\'' :: '\'' :: r' := by
    intro r y h
    obtain ⟨r, rfl⟩ := hmark (by decide) h
    obtain ⟨r, rfl⟩ := hmark (by decide) (List.cons.inj h).2
    exact ⟨r, rfl⟩
  fun_induction modeAtEnd mode s with
  | case1 r ih =>
    rw [List.cons_append, List.cons_append, codeFrom, codeFrom, ih hlong]
    exact (thenRead_append [' '] _ x _).symm
  | case2 c r hno ih =>
    rw [List.cons_append, codeFrom, codeFrom, ih hlong]
    · exact hno
    · intro y hc hy
      obtain ⟨r', rfl⟩ := hmark (by decide) hy
      exact hno r' hc rfl
  | case3 r ih =>
    rw [List.cons_append, List.cons_append, List.cons_append, codeFrom, codeFrom, ih hlong]
  | case4 c r hno ih =>
    rw [List.cons_append, codeFrom, codeFrom, ih hlong]
    · exact hno
    · intro y hc hy
      obtain ⟨r', rfl⟩ := hquotes hy
      exact hno r' hc rfl
  | case5 r ih =>
    rw [List.cons_append, List.cons_append, List.cons_append, codeFrom, codeFrom, ih hlong]
    exact (thenRead_append ['\'', '\'', '\''] _ x _).symm
  | case6 c r hno ih =>
    rw [List.cons_append, codeFrom, codeFrom, ih hlong]
    · exact (thenRead_append [c] _ x _).symm
    · exact hno
    · intro y hc hy
      obtain ⟨r', rfl⟩ := hquotes hy
      exact hno r' hc rfl
  | case7 q c r ih =>
    rw [List.cons_append, codeFrom, codeFrom, ih hlong]
    exact (thenRead_append [c] _ x _).symm
  | case8 r =>
    rw [List.cons_append, List.cons_append, codeFrom, codeFrom]
    rfl
  | case9 r ih =>
    rw [List.cons_append, List.cons_append, codeFrom, codeFrom, ih hlong]
  | case10 r hcloses ih =>
    have hmore := closesLong_append hcloses x
    rw [List.cons_append, List.cons_append, List.cons_append, codeFrom, codeFrom, if_pos hmore,
      if_pos hcloses, ih hlong]
    exact (thenRead_append ['\'', '\'', '\''] _ x _).symm
  | case11 r hopen =>
    have hmore : ∀ s, closesLong (s ++ x) = closesLong s := hlong.resolve_right (by simp)
    have hx' : closesLong x = false := hmore []
    rw [List.cons_append, List.cons_append, List.cons_append, codeFrom, codeFrom, hmore, if_neg hopen,
      if_neg hopen, thenRead, codeFrom_longString hx']
    rfl
  | case12 c r hline hblock hlongs ih =>
    rw [List.cons_append, codeFrom, codeFrom, ih hlong]
    · exact (thenRead_append [c] _ x _).symm
    · exact hline
    · exact hblock
    · exact hlongs
    · intro y hc hy
      obtain ⟨r', rfl⟩ := hmark (by decide) hy
      exact hline r' hc rfl
    · intro y hc hy
      obtain ⟨r', rfl⟩ := hmark (by decide) hy
      exact hblock r' hc rfl
    · intro y hc hy
      obtain ⟨r', rfl⟩ := hquotes hy
      exact hlongs r' hc rfl
  | case13 mode =>
    rw [List.nil_append, thenRead]
    cases mode <;> rfl

/-! ## What counts of the lines -/

/-- The lines of code that are read: those that are not blank, cut free of blanks. -/
def pieces (codes : List (List Char)) : List (List Char) := (codes.map trim).filter (· ≠ [])

theorem pieces_append (x y : List (List Char)) : pieces (x ++ y) = pieces x ++ pieces y := by
  simp [pieces]

theorem pieces_line {code code' : List Char} (h : trim code = trim code') : pieces [code] = pieces [code'] := by
  simp [pieces, h]

namespace Draft

variable {d : Draft} {code : List Char}

theorem read_trim (d : Draft) (code : List Char) : d.read (trim code) = d.read code := by
  have hstep : d.step (trim code) = d.step code := by rw [step, step, trim_trim]
  rw [read_eq_whole, read_eq_whole, hstep]

theorem read_blank (h : trim code = []) : d.read code = d := read_of_none (by rw [step, h])

theorem foldl_read_pieces (d : Draft) (codes : List (List Char)) :
    (pieces codes).foldl read d = codes.foldl read d := by
  induction codes generalizing d with
  | nil => rfl
  | cons code codes ih =>
    by_cases hblank : trim code = []
    · rw [List.foldl_cons, read_blank hblank, ← ih]
      simp [pieces, hblank]
    · rw [List.foldl_cons, ← read_trim, ← ih]
      simp [pieces, hblank]

end Draft

/-- What counts of lines that are read where `carry` is open: the lines of code and what is
open in the end. -/
def content (carry : Carry) (lines : List (List Char)) : List (List Char) × Carry :=
  (pieces (codeLines carry lines).1, (codeLines carry lines).2)

theorem content_append (carry : Carry) (x y : List (List Char)) : content carry (x ++ y) =
    ((content carry x).1 ++ (content (content carry x).2 y).1, (content (content carry x).2 y).2) := by
  rw [content, codeLines_append, pieces_append]
  rfl

theorem content_line (carry : Carry) (line : List Char) :
    content carry [line] = (pieces [(codeFrom carry.mode line).1], (codeFrom carry.mode line).2) := rfl

/-- Texts with the same content are the same schema, with the same to say about them. -/
theorem parse_of_content {text text' : String}
    (h : content .code (lines text'.toList) = content .code (lines text.toList)) : parse text' = parse text := by
  obtain ⟨hpieces, hcarry⟩ := Prod.mk.inj h
  have hdraft : draft text'.toList = draft text.toList := by
    show Draft.finish (List.foldl Draft.read .start (codeLines .code (lines text'.toList)).1) _ =
      Draft.finish (List.foldl Draft.read .start (codeLines .code (lines text.toList)).1) _
    rw [← Draft.foldl_read_pieces, hpieces, Draft.foldl_read_pieces, hcarry]
  rw [parse, parse, hdraft]

/-! ## Blanks -/

theorem trim_blank_append (hx : ∀ c ∈ x, isBlank c = true) (s : List Char) : trim (x ++ s) = trim s := by
  rw [trim, trimLeft, List.dropWhile_append_of_pos hx, trim, trimLeft]

theorem trim_append_blank (hx : ∀ c ∈ x, isBlank c = true) (s : List Char) : trim (s ++ x) = trim s := by
  induction s with
  | nil => simpa using trim_blank_append hx []
  | cons c s ih =>
    by_cases hc : isBlank c = true
    · rw [List.cons_append, trim_blank_cons hc, trim_blank_cons hc, ih]
    · rw [Bool.not_eq_true] at hc
      have hrev : ∀ c ∈ x.reverse, isBlank c = true := fun c hc => hx c (List.mem_reverse.1 hc)
      have hright : trimRight (s ++ x) = trimRight s := by
        rw [trimRight, List.reverse_append, List.dropWhile_append_of_pos hrev, trimRight]
      exact (trim_around hc [] (s ++ x)).trans (hright ▸ (trim_around hc [] s).symm)

/-- Marks are not blank. -/
theorem ne_of_isBlank {d : Char} (hc : isBlank c = true) (hd : isBlank d = false) : c ≠ d := by
  rintro rfl
  rw [hd] at hc
  cases hc

/-- A blank is read as a blank or not at all where a line starts. -/
theorem codeFrom_blank_cons (hc : isBlank c = true) (carry : Carry) (s : List Char) :
    codeFrom carry.mode (c :: s) =
      (if carry = .code then c :: (codeFrom carry.mode s).1 else (codeFrom carry.mode s).1,
        (codeFrom carry.mode s).2) := by
  have hslash := ne_of_isBlank hc (d := '/') (by decide)
  have hstar := ne_of_isBlank hc (d := '*') (by decide)
  have hquote := ne_of_isBlank hc (d := '\'') (by decide)
  cases carry with
  | code =>
    rw [Carry.mode, codeFrom, isQuote_of_isBlank hc]
    · rfl
    all_goals simp [hslash, hquote]
  | comment =>
    rw [Carry.mode, codeFrom]
    · rfl
    · simp [hstar]
  | longString =>
    rw [Carry.mode, codeFrom]
    · rfl
    · simp [hquote]

theorem codeFrom_blank_append (hx : ∀ c ∈ x, isBlank c = true) (carry : Carry) (s : List Char) :
    trim (codeFrom carry.mode (x ++ s)).1 = trim (codeFrom carry.mode s).1 ∧
      (codeFrom carry.mode (x ++ s)).2 = (codeFrom carry.mode s).2 := by
  induction x with
  | nil => exact ⟨rfl, rfl⟩
  | cons c x ih =>
    have hc := hx c List.mem_cons_self
    obtain ⟨htrim, hcarry⟩ := ih fun d hd => hx d (List.mem_cons_of_mem c hd)
    rw [List.cons_append, codeFrom_blank_cons hc]
    refine ⟨?_, hcarry⟩
    dsimp only
    split
    · rw [trim_blank_cons hc, htrim]
    · exact htrim

/-- Blanks at the end of a line are read as blanks or not at all. -/
theorem codeFrom_blank (hx : ∀ c ∈ x, isBlank c = true) (mode : Mode) :
    (∀ c ∈ (codeFrom mode x).1, isBlank c = true) ∧ (codeFrom mode x).2 = mode.carry := by
  induction x generalizing mode with
  | nil => cases mode <;> simp [codeFrom]
  | cons c x ih =>
    have hc := hx c List.mem_cons_self
    have hrest := ih fun d hd => hx d (List.mem_cons_of_mem c hd)
    have hquote := ne_of_isBlank hc (d := '\'') (by decide)
    have hfirst : ∀ {code : List Char}, (∀ d ∈ code, isBlank d = true) → ∀ d ∈ c :: code, isBlank d = true :=
      fun h d hd => (List.mem_cons.1 hd).elim (fun he => he ▸ hc) (h d)
    cases mode with
    | code =>
      have hline := codeFrom_blank_cons hc .code x
      rw [if_pos rfl] at hline
      rw [show Mode.code = Carry.code.mode from rfl, hline]
      exact ⟨hfirst (hrest .code).1, (hrest .code).2⟩
    | comment =>
      rw [show Mode.comment = Carry.comment.mode from rfl, codeFrom_blank_cons hc .comment x]
      exact hrest .comment
    | longString =>
      rw [show Mode.longString = Carry.longString.mode from rfl, codeFrom_blank_cons hc .longString x]
      exact hrest .longString
    | shortString =>
      rw [codeFrom]
      · exact ⟨hfirst (hrest .shortString).1, (hrest .shortString).2⟩
      · simp [hquote]
    | quote q =>
      rw [codeFrom]
      by_cases hq : c = q
      · rw [if_pos hq]
        exact ⟨hfirst (hrest .code).1, (hrest .code).2⟩
      · rw [if_neg hq]
        exact ⟨hfirst (hrest (.quote q)).1, (hrest (.quote q)).2⟩

/-! ## Layout -/

/-- Whether what is open between lines closes in a line. -/
def Carry.closesIn : Carry → List Char → Bool
  | .code, _ => false
  | .comment, line => Text.contains ['*', '/'] line
  | .longString, line => closesLong line

/-- What lines can be laid out as where `carry` is open. -/
inductive Relaid (carry : Carry) : List (List Char) → List (List Char) → Prop
  /-- A blank line is put in. -/
  | blankLine {line : List Char} : (∀ c ∈ line, isBlank c = true) → Relaid carry [] [line]
  /-- Blanks are put around a line. -/
  | padded {left right : List Char} (line : List Char) : (∀ c ∈ left, isBlank c = true) →
      (∀ c ∈ right, isBlank c = true) → Relaid carry [line] [left ++ line ++ right]
  /-- A comment is put behind a line of code. -/
  | remark {line : List Char} (text : List Char) : modeAtEnd carry.mode line = some .code →
      Relaid carry [line] [line ++ ' ' :: '/' :: '/' :: text]
  /-- Lines inside of a comment or a long string are written anew. -/
  | hidden {lines lines' : List (List Char)} : carry ≠ .code → (∀ line ∈ lines, carry.closesIn line = false) →
      (∀ line ∈ lines', carry.closesIn line = false) → Relaid carry lines lines'

theorem content_hidden {lines : List (List Char)} (hopen : carry ≠ .code)
    (h : ∀ line ∈ lines, carry.closesIn line = false) : content carry lines = ([], carry) := by
  induction lines with
  | nil => rfl
  | cons line lines ih =>
    have hline : codeFrom carry.mode line = ([], carry) := by
      have hcloses := h line List.mem_cons_self
      cases carry with
      | code => exact absurd rfl hopen
      | comment => exact codeFrom_comment hcloses
      | longString => exact codeFrom_longString hcloses
    rw [← List.singleton_append, content_append, content_line, hline]
    exact ih fun line' h' => h line' (List.mem_cons_of_mem line h')

theorem content_padded {left right : List Char} (line : List Char) (hleft : ∀ c ∈ left, isBlank c = true)
    (hright : ∀ c ∈ right, isBlank c = true) :
    content carry [left ++ line ++ right] = content carry [line] := by
  have hx : ∀ c ∈ right.head?, c ∉ codeMarks :=
    fun c hc => not_mem_codeMarks_of_isBlank (hright c (List.mem_of_mem_head? hc))
  have happ := codeFrom_append carry.mode line hx (.inl (closesLong_append_blank hright))
  obtain ⟨hcode, hcarry⟩ : trim (codeFrom carry.mode (line ++ right)).1 = trim (codeFrom carry.mode line).1 ∧
      (codeFrom carry.mode (line ++ right)).2 = (codeFrom carry.mode line).2 := by
    rw [happ]
    cases hend : modeAtEnd carry.mode line with
    | none => exact ⟨rfl, rfl⟩
    | some m =>
      obtain ⟨hblank, hm⟩ := codeFrom_blank hright m
      refine ⟨trim_append_blank hblank _, ?_⟩
      rw [carry_codeFrom, hend]
      exact hm
  obtain ⟨hcode', hcarry'⟩ := codeFrom_blank_append hleft carry (line ++ right)
  rw [List.append_assoc, content_line, content_line, hcarry', hcarry, pieces_line (hcode'.trans hcode)]

theorem content_remark {line : List Char} (text : List Char) (hend : modeAtEnd carry.mode line = some .code) :
    content carry [line ++ ' ' :: '/' :: '/' :: text] = content carry [line] := by
  have hx : ∀ c ∈ (' ' :: '/' :: '/' :: text).head?, c ∉ codeMarks := by
    rintro c ⟨⟩
    decide
  have happ := codeFrom_append carry.mode line hx (.inr (by simp [hend]))
  have hcarry : (codeFrom carry.mode line).2 = .code := by
    rw [carry_codeFrom, hend]
    rfl
  have hremark : codeFrom .code (' ' :: '/' :: '/' :: text) = ([' '], .code) := by simp [codeFrom, isQuote]
  rw [hend, thenRead, hremark] at happ
  have hblank : ∀ c ∈ [' '], isBlank c = true := List.forall_mem_singleton.2 (by decide)
  rw [content_line, content_line, happ, hcarry, pieces_line (trim_append_blank hblank _)]

theorem Relaid.content {x y : List (List Char)} (h : Relaid carry x y) : content carry y = content carry x := by
  cases h with
  | @blankLine line hblank =>
    obtain ⟨hcode, hcarry⟩ := codeFrom_blank hblank carry.mode
    have htrim : trim (codeFrom carry.mode line).1 = trim [] := trim_append_blank hcode []
    have hmode : carry.mode.carry = carry := by cases carry <;> rfl
    rw [content_line, hcarry, hmode, pieces_line htrim]
    rfl
  | padded line hleft hright => exact content_padded line hleft hright
  | remark text hend => exact content_remark text hend
  | hidden hopen hold hnew => rw [content_hidden hopen hnew, content_hidden hopen hold]

/-- One change of layout in the lines of a text. -/
def LinesRelaid (lines lines' : List (List Char)) : Prop :=
  ∃ before old new after, Relaid (codeLines .code before).2 old new ∧
    lines = before ++ old ++ after ∧ lines' = before ++ new ++ after

theorem LinesRelaid.content {lines lines' : List (List Char)} (h : LinesRelaid lines lines') :
    content .code lines' = content .code lines := by
  obtain ⟨before, old, new, after, hrelaid, rfl, rfl⟩ := h
  have hcontent := hrelaid.content
  rw [List.append_assoc, content_append, content_append, List.append_assoc, content_append, content_append]
  have hcarry : (Dbml.content .code before).2 = (codeLines .code before).2 := rfl
  rw [hcarry, hcontent]

theorem content_of_relaid {lines lines' : List (List Char)} (h : Relation.ReflTransGen LinesRelaid lines lines') :
    content .code lines' = content .code lines := by
  induction h with
  | refl => rfl
  | tail _ hlast ih => exact hlast.content.trans ih

/-- **Layout is immaterial**: texts whose lines come from each other by putting in blank lines,
blanks around lines and comments behind code, and by writing anew what lines inside of comments
and long strings say, are the same schema, or none alike, with the same to say about them. -/
theorem layout_is_immaterial {text text' : String}
    (h : Relation.ReflTransGen LinesRelaid (lines text.toList) (lines text'.toList)) :
    parse text' = parse text :=
  parse_of_content (content_of_relaid h)

/-- A table with a comment in it. -/
def denseText : String := "Table t \x7b\n/*\n*/\nid int\n\x7d\n"

/-- The table of `denseText` with more around what it says. -/
def airyText : String := "Table t \x7b // things\n\n/*\nid text\n*/\n  id int \n\x7d\n"

theorem airyText_relaid : Relation.ReflTransGen LinesRelaid (lines denseText.toList) (lines airyText.toList) := by
  have hdense : lines denseText.toList =
      ["Table t \x7b".toList, "/*".toList, "*/".toList, "id int".toList, "\x7d".toList] := by decide +kernel
  have hairy : lines airyText.toList = ["Table t \x7b // things".toList, [], "/*".toList, "id text".toList,
      "*/".toList, "  id int ".toList, "\x7d".toList] := by decide +kernel
  have hpadded (carry : Carry) : Relaid carry ["id int".toList] ["  id int ".toList] :=
    .padded "id int".toList (List.all_eq_true.1 (by decide : "  ".toList.all isBlank = true))
      (List.all_eq_true.1 (by decide : " ".toList.all isBlank = true))
  rw [hdense, hairy]
  refine .head ⟨[], [_], _, _, .remark " things".toList (by decide +kernel), rfl, rfl⟩ ?_
  refine .head ⟨[_], [], [[]], _, .blankLine (List.forall_mem_nil _), rfl, rfl⟩ ?_
  refine .head ⟨[_, _, _], [], ["id text".toList], _, .hidden (by decide +kernel) (by decide)
    (by decide +kernel), rfl, rfl⟩ ?_
  exact .single ⟨[_, _, _, _, _], [_], ["  id int ".toList], _, hpadded _, rfl, rfl⟩

theorem airyText_reads_alike :
    Relation.ReflTransGen LinesRelaid (lines denseText.toList) (lines airyText.toList) ∧
      parse airyText = parse denseText ∧
      (parse airyText).1 = some ⟨⟨[⟨"t", [⟨"id", "int", ⟨[]⟩⟩]⟩], []⟩, []⟩ := by
  have hsame := layout_is_immaterial airyText_relaid
  refine ⟨airyText_relaid, hsame, ?_⟩
  rw [hsame]
  decide +kernel

end SeedData.Dbml
