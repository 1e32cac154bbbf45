/-
How the pieces of a line are spelled so that they are read as they stand: words over few
characters (`IsWord`), text without comments (`Verbatim`), runs of bare characters, and
names in double quotes, in which every other character is free.
-/
import SeedData.Dbml.Code
import SeedData.Dbml.Token
import SeedData.Proofs.Identifiers
import SeedData.Proofs.Quotations

namespace SeedData.Dbml

open Text

variable {c : Char} {x y : List Char}

/-! ## Characters -/

/-- What a type may be written with. -/
def isTypeChar (c : Char) : Bool := Identifier.isPlain c || c == '(' || c == ')' || c == ','

theorem ne_of_class {p : Char → Bool} {c d : Char} (hc : p c = true) (hd : p d = false) : c ≠ d := by
  rintro rfl
  rw [hc] at hd
  cases hd

theorem isTypeChar_of_isPlain (h : Identifier.isPlain c = true) : isTypeChar c = true := by
  simp [isTypeChar, h]

theorem isBlank_of_isTypeChar (h : isTypeChar c = true) : isBlank c = false := by
  have hrange : (97 ≤ c.toNat ∧ c.toNat ≤ 122) ∨ (48 ≤ c.toNat ∧ c.toNat ≤ 57) ∨ c.toNat = 95 ∨
      c.toNat = 40 ∨ c.toNat = 41 ∨ c.toNat = 44 := by
    simp only [isTypeChar, Identifier.isPlain, Bool.or_eq_true, beq_iff_eq] at h
    rcases h with ((((h | h) | rfl) | rfl) | rfl) | rfl
    · left
      have hlower : decide (c.val ≥ 97) && decide (c.val ≤ 122) := h
      simpa [UInt32.le_iff_toNat_le] using hlower
    · right; left
      simpa [Char.isDigit, UInt32.le_iff_toNat_le] using h
    all_goals decide
  simp [isBlank]
  omega

theorem isQuote_of_isTypeChar (h : isTypeChar c = true) : isQuote c = false := by
  have hne : ∀ d, isTypeChar d = false → (c == d) = false := fun d hd => beq_false_of_ne (ne_of_class h hd)
  rw [isQuote, hne _ (by decide), hne _ (by decide), hne _ (by decide)]
  rfl

/-- What needs no quotes on a line: neither quotes nor the slash that comments start with. -/
def isBare (c : Char) : Bool := c != '/' && !isQuote c && c != '\n'

theorem isBare_of_isTypeChar (h : isTypeChar c = true) : isBare c = true := by
  have hslash : c ≠ '/' := ne_of_class h (by decide)
  have hfeed : c ≠ '\n' := ne_of_class h (by decide)
  simp [isBare, hslash, hfeed, isQuote_of_isTypeChar h]

/-! ## Words -/

/-- Text that a type can be, and any identifier. -/
def IsWord (x : List Char) : Prop := ∀ c ∈ x, isTypeChar c = true

theorem isWord_of_normalize {name : String} (h : Identifier.normalize name = name) : IsWord name.toList :=
  fun c hc => isTypeChar_of_isPlain ((Identifier.plain_of_normalize h).2 c hc)

theorem IsWord.head (h : IsWord x) : ∀ c ∈ x.head?, isBlank c = false :=
  fun c hc => isBlank_of_isTypeChar (h c (List.mem_of_mem_head? hc))

theorem IsWord.last (h : IsWord x) : ∀ c ∈ x.getLast?, isBlank c = false :=
  fun c hc => isBlank_of_isTypeChar (h c (List.mem_of_mem_getLast? hc))

theorem IsWord.trim (h : IsWord x) : trim x = x := trim_eq_self h.head h.last

theorem IsWord.bare (h : IsWord x) : ∀ c ∈ x, isQuote c = false :=
  fun c hc => isQuote_of_isTypeChar (h c hc)

theorem IsWord.unquote (h : IsWord x) : unquote x = x := (unquote_bare h.bare).trans h.trim

/-- A mark that words do not have is not met in one. -/
theorem IsWord.unmarked (h : IsWord x) {mark : Char} (hmark : isTypeChar mark = false) :
    ∀ c ∈ outside none x, (c == mark) = false := by
  rw [(outside_of_bare h.bare).1]
  exact fun c hc => beq_false_of_ne (ne_of_class (h c hc) hmark)

/-! ## Comments -/

/-- Text that is code as it stands, whatever follows it. -/
def Verbatim (x : List Char) : Prop :=
  ∀ r, codeFrom .code (x ++ r) = (x ++ (codeFrom .code r).1, (codeFrom .code r).2)

theorem Verbatim.codeFrom (h : Verbatim x) : codeFrom .code x = (x, .code) := by
  have hx := h []
  rwa [List.append_nil, Dbml.codeFrom, List.append_nil] at hx

theorem Verbatim.append (hx : Verbatim x) (hy : Verbatim y) : Verbatim (x ++ y) := by
  intro r
  rw [List.append_assoc, hx, hy, List.append_assoc]

theorem verbatim_bare (h : ∀ c ∈ x, isBare c = true) : Verbatim x := by
  intro r
  induction x with
  | nil => rfl
  | cons c x ih =>
    obtain ⟨⟨hslash, hquote⟩, -⟩ : (c ≠ '/' ∧ isQuote c = false) ∧ c ≠ '\n' := by
      simpa [isBare] using h c List.mem_cons_self
    have hapostrophe : c ≠ '\'' := by
      rintro rfl
      exact absurd hquote (by decide)
    have hrest := ih fun d hd => h d (List.mem_cons_of_mem c hd)
    rw [List.cons_append, codeFrom, hquote, if_neg Bool.false_ne_true, hrest]
    · rfl
    all_goals simp [hslash, hapostrophe]

theorem codeFrom_quote (h : '"' ∉ x) (r : List Char) :
    codeFrom (.quote '"') (x ++ '"' :: r) = (x ++ '"' :: (codeFrom .code r).1, (codeFrom .code r).2) := by
  induction x with
  | nil => simp [codeFrom]
  | cons c x ih =>
    rw [List.mem_cons, not_or] at h
    rw [List.cons_append, codeFrom, if_neg (Ne.symm h.1), ih h.2]
    rfl

/-! ## Quoted names -/

/-- A name in double quotes. -/
def quoted (name : List Char) : List Char := '"' :: name ++ ['"']

theorem quoted_append (name r : List Char) : quoted name ++ r = '"' :: (name ++ '"' :: r) := by
  simp [quoted]

theorem verbatim_quoted (h : '"' ∉ x) : Verbatim (quoted x) := by
  intro r
  rw [quoted_append, quoted_append, codeFrom]
  · simp [isQuote, codeFrom_quote h]
  all_goals simp

theorem foldl_quoteAfter_quote (h : '"' ∉ x) : x.foldl quoteAfter (some '"') = some '"' := by
  induction x with
  | nil => rfl
  | cons c x ih =>
    rw [List.mem_cons, not_or] at h
    rw [List.foldl_cons, quoteAfter, if_neg (Ne.symm h.1), ih h.2]

theorem outside_quote (q : Char) (x : List Char) (h : q ∉ x) : outside (some q) x = [] := by
  induction x with
  | nil => rfl
  | cons c x ih =>
    rw [List.mem_cons, not_or] at h
    rw [outside, isOutside, quoteAfter, if_neg (Ne.symm h.1), ih h.2]
    simp

/-- A name in double quotes has nothing outside them, and they close. -/
theorem outside_quoted (h : '"' ∉ x) :
    outside none (quoted x) = [] ∧ (quoted x).foldl quoteAfter none = none := by
  have hfold := foldl_quoteAfter_quote h
  constructor
  · rw [quoted, List.cons_append, outside]
    simp [isOutside, isQuote, quoteAfter, outside_append, outside_quote _ _ h, hfold, outside]
  · rw [quoted, List.cons_append, List.foldl_cons, List.foldl_append]
    show (List.foldl quoteAfter (some '"') x |> fun q => quoteAfter q '"') = none
    rw [hfold]
    rfl

/-! ## Lines -/

/-- Text that is code as it stands and stays on one line. -/
structure Spelled (x : List Char) : Prop where
  verbatim : Verbatim x
  oneLine : '\n' ∉ x

theorem Spelled.append (hx : Spelled x) (hy : Spelled y) : Spelled (x ++ y) where
  verbatim := hx.verbatim.append hy.verbatim
  oneLine := by simp [hx.oneLine, hy.oneLine]

theorem spelled_bare (h : x.all isBare = true) : Spelled x where
  verbatim := verbatim_bare (List.all_eq_true.1 h)
  oneLine := fun hfeed => absurd (List.all_eq_true.1 h '\n' hfeed) (by decide)

theorem IsWord.spelled (h : IsWord x) : Spelled x :=
  spelled_bare (List.all_eq_true.2 fun c hc => isBare_of_isTypeChar (h c hc))

theorem spelled_quoted (hquote : '"' ∉ x) (hfeed : '\n' ∉ x) : Spelled (quoted x) where
  verbatim := verbatim_quoted hquote
  oneLine := by simp [quoted, hfeed]

/-- A line that is read as it stands: code with no blanks at its ends. -/
structure CodeLine (x : List Char) : Prop where
  spelled : Spelled x
  head : ∀ c ∈ x.head?, isBlank c = false
  last : ∀ c ∈ x.getLast?, isBlank c = false

theorem CodeLine.trim (h : CodeLine x) : trim x = x := trim_eq_self h.head h.last

/-- Lines that are read as they stand are the code of the text that they make up. -/
theorem codeLines_flatMap {l : List (List Char)} (h : ∀ line ∈ l, CodeLine line) :
    codeLines .code (lines (l.flatMap (· ++ ['\n']))) = (l, .code) := by
  have hreturn : ∀ line ∈ l, line.getLast? ≠ some '\r' := by
    intro line hline hlast
    exact absurd ((h line hline).last '\r' hlast) (by decide)
  rw [lines_flatMap fun line hline => ⟨(h line hline).spelled.oneLine, hreturn line hline⟩]
  clear hreturn
  induction l with
  | nil => rfl
  | cons line l ih =>
    have hline : codeFrom Carry.code.mode line = (line, .code) :=
      (h line List.mem_cons_self).spelled.verbatim.codeFrom
    rw [codeLines, hline]
    dsimp only
    rw [ih fun line' h' => h line' (List.mem_cons_of_mem line h')]

/-! ## Runs of atoms -/

section Atoms

variable {closer : Char → Option Char} {bare : Char → Bool}

theorem takeAtoms_bare (h : ∀ c ∈ x, closer c = none ∧ bare c = true) (r : List Char) :
    takeAtoms closer bare none (x ++ r) =
      (x ++ (takeAtoms closer bare none r).1, (takeAtoms closer bare none r).2) := by
  induction x with
  | nil => rfl
  | cons c x ih =>
    obtain ⟨hcloser, hbare⟩ := h c List.mem_cons_self
    rw [List.cons_append, takeAtoms, hcloser]
    dsimp only
    rw [if_pos hbare, ih fun d hd => h d (List.mem_cons_of_mem c hd)]
    rfl

theorem takeAtoms_enclosed {close : Char} (h : close ∉ x) (r : List Char) :
    takeAtoms closer bare (some close) (x ++ close :: r) =
      (x ++ close :: (takeAtoms closer bare none r).1, (takeAtoms closer bare none r).2) := by
  induction x with
  | nil => simp [takeAtoms]
  | cons c x ih =>
    rw [List.mem_cons, not_or] at h
    rw [List.cons_append, takeAtoms, if_neg (Ne.symm h.1), ih h.2]
    rfl

theorem takeAtoms_quoted (hcloser : closer '"' = some '"') (h : '"' ∉ x) (r : List Char) :
    takeAtoms closer bare none (quoted x ++ r) =
      (quoted x ++ (takeAtoms closer bare none r).1, (takeAtoms closer bare none r).2) := by
  rw [quoted_append, takeAtoms, hcloser]
  dsimp only
  rw [if_pos (by simp), takeAtoms_enclosed h, quoted_append]

end Atoms

end SeedData.Dbml
