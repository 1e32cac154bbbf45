/-
How endpoints and relations are taken from text. What is taken whole on its own is taken whole in front of
other text, and the other way round (`takeAtoms_whole_append`, `whole_of_takeAtoms_append`). An endpoint has
as many characters of a class as it is spelled with (`countP_endpoint`), and a relation no more than its
text (`relation?_spec`), so a mark or a comma that is used to cut a text is missed in what comes of it.
-/
import Mathlib.Algebra.GroupWithZero.Nat
import Mathlib.Data.List.Infix
import SeedData.Dbml.Relation
import SeedData.Proofs.Quotations

namespace SeedData

namespace Text

variable {f : Char → Bool} {m : Char} {s : List Char}

/-! ## Counting characters -/

theorem join_splitOutside (m : Char) (quote : Option Char) (s : List Char) :
    join [m] (splitOutside (· == m) quote s) = s := by
  induction s generalizing quote with
  | nil => simp [splitOutside, join]
  | cons c s ih =>
    rw [splitOutside]
    split
    · rename_i hcut
      obtain rfl : c = m := by
        rw [Bool.and_eq_true, beq_iff_eq] at hcut
        exact hcut.2
      have hrest := ih none
      cases hs : splitOutside (· == c) none s with
      | nil => exact absurd hs (splitOutside_ne_nil _ none s)
      | cons w ws =>
        rw [hs, join] at hrest
        rw [join, List.intercalate_cons_cons, hrest]
        rfl
    · have hrest := ih (quoteAfter quote c)
      cases hs : splitOutside (· == m) (quoteAfter quote c) s with
      | nil => exact absurd hs (splitOutside_ne_nil _ _ s)
      | cons w ws =>
        rw [hs] at hrest
        cases ws with
        | nil => simpa [join] using hrest
        | cons v ws => simpa [join, List.intercalate_cons_cons] using hrest

/-- A text has one piece more than it is cut at. -/
theorem length_splitOutside (p : Char → Bool) (quote : Option Char) (s : List Char) :
    (splitOutside p quote s).length = (outside quote s).countP p + 1 := by
  rw [← countOutside_eq]
  induction s generalizing quote with
  | nil => rfl
  | cons c s ih =>
    rw [splitOutside, countOutside]
    split
    · rename_i hcut
      rw [Bool.and_eq_true, isOutside, Bool.and_eq_true, Option.isNone_iff_eq_none] at hcut
      have hafter : quoteAfter quote c = none := by
        rw [hcut.1.1]
        simpa [quoteAfter] using hcut.1.2
      rw [List.length_cons, ih, hafter]
      omega
    · have hlength := ih (quoteAfter quote c)
      cases hs : splitOutside p (quoteAfter quote c) s with
      | nil => exact absurd hs (splitOutside_ne_nil _ _ s)
      | cons w ws =>
        rw [hs, List.length_cons] at hlength
        rw [List.length_cons, hlength, Nat.zero_add]

theorem countP_join (f : Char → Bool) (m : Char) (pieces : List (List Char)) :
    (join [m] pieces).countP f =
      (pieces.map (·.countP f)).sum + (pieces.length - 1) * [m].countP f := by
  induction pieces with
  | nil => simp [join]
  | cons w ws ih =>
    cases ws with
    | nil => simp [join]
    | cons v ws =>
      rw [join, List.intercalate_cons_cons, List.countP_append, List.countP_append, ← join, ih]
      simp only [List.map_cons, List.sum_cons, List.length_cons, Nat.add_sub_cancel, Nat.succ_mul]
      omega

/-- A class of characters that are neither trimmed off nor taken for quotes. -/
structure Lasting (f : Char → Bool) : Prop where
  blank : ∀ c, isBlank c = true → f c = false
  quote : ∀ c, isQuote c = true → f c = false

theorem Lasting.countP_trim (h : Lasting f) (s : List Char) : (trim s).countP f = s.countP f := by
  have hblank : ∀ {blanks : List Char}, (∀ c ∈ blanks, isBlank c = true) → blanks.countP f = 0 := by
    intro blanks hb
    refine List.countP_eq_zero.2 fun c hc => ?_
    rw [h.blank c (hb c hc)]
    exact Bool.false_ne_true
  obtain ⟨front, hs, hfront⟩ := trimLeft_spec s
  obtain ⟨back, ht, hback⟩ := trimRight_spec (trimLeft s)
  rw [ht, ← trim] at hs
  rw [hs, List.countP_append, List.countP_append, hblank hfront, hblank hback, Nat.zero_add, Nat.add_zero]
  rw [← hs]

theorem Lasting.countP_unquote (h : Lasting f) (s : List Char) : (unquote s).countP f = s.countP f := by
  rw [← h.countP_trim s, unquote]
  split
  · rename_i htrim
    rw [htrim]
  · rename_i q r htrim
    rw [htrim]
    split
    · rename_i hquoted
      rw [Bool.and_eq_true, beq_iff_eq] at hquoted
      obtain ⟨x, rfl⟩ := List.getLast?_eq_some_iff.1 hquoted.2
      have hq := h.quote q hquoted.1
      rw [List.dropLast_concat, h.countP_trim, List.countP_cons, List.countP_append]
      simp [hq]
    · rfl

theorem lasting_beq (hblank : isBlank m = false) (hquote : isQuote m = false) : Lasting (· == m) where
  blank c hc := beq_false_of_ne fun h => by simp [← h, hc] at hblank
  quote c hc := beq_false_of_ne fun h => by simp [← h, hc] at hquote

end Text

namespace Dbml

open Text

/-! ## Taking atoms -/

section Atoms

variable {closer : Char → Option Char} {bare : Char → Bool} {enclosed : Option Char} {close : Char}
  {s x y : List Char}

theorem takeAtoms_append (closer : Char → Option Char) (bare : Char → Bool) (enclosed : Option Char)
    (s : List Char) : (takeAtoms closer bare enclosed s).1 ++ (takeAtoms closer bare enclosed s).2 = s := by
  fun_induction takeAtoms closer bare enclosed s <;> simp_all

/-- Text of which nothing is left is taken whole in front of any other, once what is open is closed in it. -/
theorem takeAtoms_whole_append (h : (takeAtoms closer bare enclosed x).2 = [])
    (hclosed : ∀ close ∈ enclosed, close ∈ x) (y : List Char) :
    takeAtoms closer bare enclosed (x ++ y) =
      (x ++ (takeAtoms closer bare none y).1, (takeAtoms closer bare none y).2) := by
  induction x generalizing enclosed with
  | nil =>
    cases enclosed with
    | none => rfl
    | some close => exact absurd (hclosed close rfl) List.not_mem_nil
  | cons c x ih =>
    cases enclosed with
    | some close =>
      have hrest : ∀ open_ ∈ (if c = close then none else some close), open_ ∈ x := by
        intro open_ hopen
        split at hopen
        · cases hopen
        · rename_i hc
          obtain rfl : close = open_ := by simpa using hopen
          exact (List.mem_cons.1 (hclosed close rfl)).resolve_left (Ne.symm hc)
      rw [takeAtoms] at h
      rw [List.cons_append, takeAtoms, ih h hrest]
      rfl
    | none =>
      rw [takeAtoms] at h
      rw [List.cons_append, takeAtoms]
      cases hcloser : closer c with
      | some close =>
        rw [hcloser] at h
        dsimp only at h ⊢
        split at h
        · rename_i hx
          have hx : close ∈ x := by simpa using hx
          rw [if_pos (by simp [hx]), ih h (by simpa using hx)]
          rfl
        · cases h
      | none =>
        rw [hcloser] at h
        dsimp only at h ⊢
        split at h
        · rename_i hc
          rw [if_pos hc, ih h (by simp)]
          rfl
        · cases h

/-- Text that is taken as it stands in front of another is taken whole on its own, and what is open is
closed in it. -/
theorem whole_of_takeAtoms_append (hy : y ≠ []) (h : takeAtoms closer bare enclosed (x ++ y) = (x, y)) :
    (takeAtoms closer bare enclosed x).2 = [] ∧ ∀ close ∈ enclosed, close ∈ x := by
  induction x generalizing enclosed with
  | nil =>
    cases enclosed with
    | none => simp [takeAtoms]
    | some close =>
      cases y with
      | nil => exact absurd rfl hy
      | cons c y => simp [takeAtoms] at h
  | cons c x ih =>
    cases enclosed with
    | some close =>
      rw [List.cons_append, takeAtoms, Prod.mk.injEq, List.cons.injEq] at h
      obtain ⟨hrest, hclosed⟩ := ih (Prod.ext h.1.2 h.2)
      rw [takeAtoms]
      refine ⟨hrest, fun close' hclose => ?_⟩
      obtain rfl : close = close' := by simpa using hclose
      by_cases hc : c = close
      · exact hc ▸ List.mem_cons_self
      · exact List.mem_cons_of_mem c (hclosed close (by simp [hc]))
    | none =>
      rw [List.cons_append, takeAtoms] at h
      rw [takeAtoms]
      cases hcloser : closer c with
      | some close =>
        rw [hcloser] at h
        dsimp only at h ⊢
        split at h
        · rw [Prod.mk.injEq, List.cons.injEq] at h
          obtain ⟨hrest, hclosed⟩ := ih (Prod.ext h.1.2 h.2)
          have hx : close ∈ x := hclosed close rfl
          rw [if_pos (by simpa using hx)]
          exact ⟨hrest, by simp⟩
        · cases h
      | none =>
        rw [hcloser] at h
        dsimp only at h ⊢
        split at h
        · rename_i hc
          rw [Prod.mk.injEq, List.cons.injEq] at h
          rw [if_pos hc]
          exact ⟨(ih (Prod.ext h.1.2 h.2)).1, by simp⟩
        · cases h

theorem last_of_cons {c d : Char} (hx : x = [] → isBlank c = false) (hlast : ∀ e ∈ x.getLast?, isBlank e = false)
    (hd : d ∈ (c :: x).getLast?) : isBlank d = false := by
  cases x with
  | nil =>
    cases hd
    exact hx rfl
  | cons e x => exact hlast d (by rwa [List.getLast?_cons_cons] at hd)

/-- What is taken does not end with a blank, if blanks neither close a piece nor stand bare. -/
theorem getLast?_takeAtoms (hcloser : ∀ c close, closer c = some close → isBlank close = false)
    (hbare : ∀ c, closer c = none → bare c = true → isBlank c = false)
    (hclosed : ∀ close ∈ enclosed, isBlank close = false ∧ close ∈ s) :
    ∀ c ∈ (takeAtoms closer bare enclosed s).1.getLast?, isBlank c = false := by
  have hopened : ∀ {close : Char} {s}, close ∈ s → (takeAtoms closer bare (some close) s).1 ≠ [] := by
    intro close s hs
    cases s with
    | nil => cases hs
    | cons c s => simp [takeAtoms]
  induction s generalizing enclosed with
  | nil => cases enclosed <;> simp [takeAtoms]
  | cons c s ih =>
    intro d hd
    cases enclosed with
    | some close =>
      obtain ⟨hblank, hs⟩ := hclosed close rfl
      rw [takeAtoms] at hd
      by_cases hc : c = close
      · rw [if_pos hc] at hd
        exact last_of_cons (fun _ => hc ▸ hblank) (ih (by simp)) hd
      · rw [if_neg hc] at hd
        have hs : close ∈ s := (List.mem_cons.1 hs).resolve_left (Ne.symm hc)
        exact last_of_cons (fun hnil => absurd hnil (hopened hs)) (ih (by simpa using ⟨hblank, hs⟩)) hd
    | none =>
      rw [takeAtoms] at hd
      cases hopen : closer c with
      | some close =>
        rw [hopen] at hd
        dsimp only at hd
        split at hd
        · rename_i hs
          have hs : close ∈ s := by simpa using hs
          exact last_of_cons (fun hnil => absurd hnil (hopened hs))
            (ih (by simpa using ⟨hcloser c close hopen, hs⟩)) hd
        · cases hd
      | none =>
        rw [hopen] at hd
        dsimp only at hd
        split at hd
        · rename_i hc
          exact last_of_cons (fun _ => hbare c hopen hc) (ih (by simp)) hd
        · cases hd

end Atoms

/-! ## Endpoints -/

section Endpoints

variable {f : Char → Bool} {s x y text left right r table column : List Char} {mark : Mark} {e : Endpoint}

theorem takeEndpoint_append (h : (takeEndpoint x).2 = []) (y : List Char) :
    takeEndpoint (x ++ y) = (x ++ (takeEndpoint y).1, (takeEndpoint y).2) :=
  takeAtoms_whole_append h (by simp) y

theorem whole_of_takeEndpoint_append (hy : y ≠ []) (h : takeEndpoint (x ++ y) = (x, y)) :
    (takeEndpoint x).2 = [] := (whole_of_takeAtoms_append hy h).1

theorem takeEndpoint_blank {c : Char} (hc : isBlank c = true) (s : List Char) :
    takeEndpoint (c :: s) = ([], c :: s) := by
  have hround : c ≠ '(' := by
    rintro rfl
    exact absurd hc (by decide)
  simp [takeEndpoint, takeAtoms, endpointCloser, quoteCloser, isQuote_of_isBlank hc, hround, isEndpointChar, hc]

theorem isBlank_of_quoteCloser {c close : Char} (h : quoteCloser c = some close) : isBlank close = false := by
  unfold quoteCloser at h
  split at h
  · rename_i hc
    obtain rfl : c = close := by simpa using h
    rw [Bool.eq_false_iff]
    intro hblank
    rw [isQuote_of_isBlank hblank] at hc
    cases hc
  · cases h

theorem getLast?_takeEndpoint (s : List Char) : ∀ c ∈ (takeEndpoint s).1.getLast?, isBlank c = false := by
  refine getLast?_takeAtoms (fun c close h => ?_) (fun c _ h => ?_) (by simp)
  · unfold endpointCloser at h
    split at h
    · cases h
      decide
    · exact isBlank_of_quoteCloser h
  · simp only [isEndpointChar, Bool.and_eq_true, Bool.not_eq_true'] at h
    exact h.1.1.1.1.1

theorem head?_takeEndpoint (s : List Char) : ∀ c ∈ (takeEndpoint s).1.head?, isBlank c = false := by
  intro c hc
  obtain ⟨rest, hrest⟩ := List.head?_eq_some_iff.1 (Option.mem_def.1 hc)
  have hall := takeAtoms_append endpointCloser isEndpointChar none s
  rw [← takeEndpoint, hrest, List.cons_append] at hall
  rw [Bool.eq_false_iff]
  intro hblank
  rw [← hall, takeEndpoint_blank hblank] at hrest
  cases hrest

theorem trim_takeEndpoint (s : List Char) : trim (takeEndpoint s).1 = (takeEndpoint s).1 :=
  trim_eq_self (head?_takeEndpoint s) (getLast?_takeEndpoint s)

/-- A text that is taken as one endpoint from its start to its end. -/
structure IsEndpointText (s : List Char) : Prop where
  ne_nil : s ≠ []
  whole : (takeEndpoint s).2 = []

namespace IsEndpointText

theorem take (h : IsEndpointText s) : takeEndpoint s = (s, []) := by
  have hall := takeAtoms_append endpointCloser isEndpointChar none s
  rw [← takeEndpoint, h.whole, List.append_nil] at hall
  exact Prod.ext hall h.whole

theorem head (h : IsEndpointText s) : ∀ c ∈ s.head?, isBlank c = false := by
  have hhead := head?_takeEndpoint s
  rwa [h.take] at hhead

theorem last (h : IsEndpointText s) : ∀ c ∈ s.getLast?, isBlank c = false := by
  have hlast := getLast?_takeEndpoint s
  rwa [h.take] at hlast

/-- An endpoint ends before a blank. -/
theorem take_append (h : IsEndpointText s) (hx : ∀ c ∈ x.head?, isBlank c = true) :
    takeEndpoint (s ++ x) = (s, x) := by
  rw [takeEndpoint_append h.whole]
  cases x with
  | nil => exact Prod.ext (List.append_nil s) rfl
  | cons c x => rw [takeEndpoint_blank (hx c rfl), List.append_nil]

end IsEndpointText

/-- Table and column of an endpoint have the lasting characters that it is spelled with, but for the dots. -/
theorem countP_endpoint (hf : Lasting f) (hdot : f '.' = false) (h : endpoint? s = some e) :
    e.table.toList.countP f + e.column.toList.countP f = s.countP f := by
  have hparts : (((splitOutside (· == '.') none (trim s)).map unquote).map (·.countP f)).sum = s.countP f := by
    have hjoin := countP_join f '.' (splitOutside (· == '.') none (trim s))
    rw [join_splitOutside, hf.countP_trim] at hjoin
    rw [List.map_map, hjoin]
    have hsame : ((·.countP f) ∘ unquote) = (·.countP f) := funext hf.countP_unquote
    simp [hsame, hdot]
  unfold endpoint? at h
  dsimp only at h
  split at h
  · rename_i column second others hrev
    split at h
    · cases h
    · cases h
      have hsum : (((splitOutside (· == '.') none (trim s)).map unquote).reverse.map (·.countP f)).sum =
          s.countP f := by
        rw [List.map_reverse, List.sum_reverse, hparts]
      have htable := countP_join f '.' (second :: others).reverse
      rw [hrev, List.map_cons, List.sum_cons] at hsum
      rw [List.map_reverse, List.sum_reverse] at htable
      rw [String.toList_ofList, String.toList_ofList, htable]
      simp only [List.countP_singleton, hdot, Bool.false_eq_true, if_false, Nat.mul_zero, Nat.add_zero]
      omega
  · cases h

/-! ## The last dot of an endpoint -/

/-- Dots of the text are in quotations. -/
def Undotted (s : List Char) : Prop := ∀ c ∈ outside none s, c ≠ '.'

theorem undotted_iff : Undotted s ↔ ∀ c ∈ outside none s, (c == '.') = false := by
  simp only [Undotted, beq_eq_false_iff_ne]

theorem endpoint?_undotted (htrim : trim s = s) (h : Undotted s) : endpoint? s = none := by
  rw [endpoint?, htrim, splitOutside_none (undotted_iff.1 h)]
  rfl

/-- What an endpoint names is what stands around its last dot. -/
theorem endpoint?_dotted (htrim : trim (table ++ '.' :: column) = table ++ '.' :: column)
    (hclosed : table.foldl quoteAfter none = none) (h : Undotted column) :
    endpoint? (table ++ '.' :: column) =
      if joinParts table = [] ∨ unquote column = [] ∨ (unquote column).head? = some '(' then none
      else some ⟨String.ofList (joinParts table), String.ofList (unquote column)⟩ := by
  have hparts : (splitOutside (· == '.') none (table ++ '.' :: column)).map unquote =
      (splitOutside (· == '.') none table).map unquote ++ [unquote column] := by
    rw [splitOutside_append hclosed (by decide) (by decide), splitOutside_none (undotted_iff.1 h), List.map_append,
      List.map_singleton]
  rw [endpoint?, htrim, hparts, List.reverse_append, List.reverse_singleton, List.singleton_append]
  dsimp only
  cases htable : ((splitOutside (· == '.') none table).map unquote).reverse with
  | nil =>
    rw [List.reverse_eq_nil_iff, List.map_eq_nil_iff] at htable
    exact absurd htable (splitOutside_ne_nil _ _ _)
  | cons second others =>
    have hjoin : join ['.'] (second :: others).reverse = joinParts table := by
      rw [← htable, List.reverse_reverse, joinParts]
    dsimp only
    rw [hjoin]
    refine if_congr ?_ rfl rfl
    rw [Bool.or_eq_true, Bool.or_eq_true, List.isEmpty_iff, List.isEmpty_iff, beq_iff_eq, or_comm]

/-! ## Marks and relations -/

/-- The marks as they are spelled. -/
def marks : List (List Char × Mark) :=
  [(['<', '>'], .noChild), (['>'], .leftIsChild), (['<'], .rightIsChild), (['-'], .leftIsChild)]

theorem takeMark?_spec (h : takeMark? s = some (mark, r)) :
    ∃ symbol, (symbol, mark) ∈ marks ∧ s = symbol ++ r := by
  unfold takeMark? at h
  split at h
  all_goals cases h
  · exact ⟨['<', '>'], by decide, rfl⟩
  · exact ⟨['>'], by decide, rfl⟩
  · exact ⟨['<'], by decide, rfl⟩
  · exact ⟨['-'], by decide, rfl⟩

theorem countP_trimLeft_le (f : Char → Bool) (s : List Char) : (trimLeft s).countP f ≤ s.countP f :=
  (List.dropWhile_sublist _).countP_le

/-- A mark is taken as it is spelled if a blank is behind it. -/
theorem takeMark?_blank {symbol : List Char} (h : (symbol, mark) ∈ marks) (r : List Char) :
    takeMark? (symbol ++ ' ' :: r) = some (mark, ' ' :: r) := by
  simp only [marks, List.mem_cons, Prod.mk.injEq, List.not_mem_nil, or_false] at h
  rcases h with ⟨rfl, rfl⟩ | ⟨rfl, rfl⟩ | ⟨rfl, rfl⟩ | ⟨rfl, rfl⟩ <;> rfl

/-- What two endpoints with a mark in between, apart from each other, are as a relation. -/
theorem relation?_spelled {before symbol tail : List Char} (hbefore : ∀ c ∈ before, isBlank c = true)
    (hleft : IsEndpointText left) (hsymbol : (symbol, mark) ∈ marks) (hright : IsEndpointText right)
    (hgap : ∀ c ∈ tail.head?, isBlank c = true) (htail : isSettingsTail tail = true) :
    relation? (before ++ (left ++ ' ' :: (symbol ++ ' ' :: (right ++ tail)))) = some (left, mark, right) := by
  have hstart : trimLeft (before ++ (left ++ ' ' :: (symbol ++ ' ' :: (right ++ tail)))) =
      left ++ ' ' :: (symbol ++ ' ' :: (right ++ tail)) := by
    rw [trimLeft, List.dropWhile_append_of_pos hbefore, ← trimLeft]
    refine trimLeft_eq_self ?_
    rw [List.head?_append_of_ne_nil _ hleft.ne_nil]
    exact hleft.head
  have hmark : trimLeft (' ' :: (symbol ++ ' ' :: (right ++ tail))) = symbol ++ ' ' :: (right ++ tail) := by
    have hink : symbol ≠ [] ∧ ∀ c ∈ symbol.head?, isBlank c = false := by
      simp only [marks, List.mem_cons, Prod.mk.injEq, List.not_mem_nil, or_false] at hsymbol
      rcases hsymbol with ⟨rfl, -⟩ | ⟨rfl, -⟩ | ⟨rfl, -⟩ | ⟨rfl, -⟩
      all_goals exact ⟨List.cons_ne_nil _ _, by rintro c ⟨⟩; decide⟩
    exact trimLeft_blank_append (by decide) hink.1 hink.2 _
  have hend : trimLeft (' ' :: (right ++ tail)) = right ++ tail :=
    trimLeft_blank_append (by decide) hright.ne_nil hright.head tail
  rw [relation?, hstart, hleft.take_append (by simp; decide)]
  simp [hleft.ne_nil, hmark, takeMark?_blank hsymbol, hend, hright.take_append hgap, hright.ne_nil, htail]

/-- A relation has its endpoints and its mark one behind the other. -/
theorem relation?_spec (h : relation? text = some (left, mark, right)) :
    (takeEndpoint (trimLeft text)).1 = left ∧ ∃ symbol, (symbol, mark) ∈ marks ∧
      ∀ f : Char → Bool, left.countP f + symbol.countP f + right.countP f ≤ text.countP f := by
  have htaken := fun s => takeAtoms_append endpointCloser isEndpointChar none s
  unfold relation? at h
  dsimp only at h
  split at h
  · cases h
  · obtain ⟨⟨mark', r⟩, hmark, h⟩ := Option.bind_eq_some_iff.1 h
    obtain ⟨symbol, hsymbol, hr⟩ := takeMark?_spec hmark
    dsimp only at h
    split at h
    · cases h
    · split at h
      · cases h
        refine ⟨rfl, symbol, hsymbol, fun f => ?_⟩
        have htext := congrArg (List.countP f) (htaken (trimLeft text))
        have hrest := congrArg (List.countP f) (htaken (trimLeft r))
        have hgap := congrArg (List.countP f) hr
        have hleft := countP_trimLeft_le f text
        have hmiddle := countP_trimLeft_le f (takeEndpoint (trimLeft text)).2
        have hright := countP_trimLeft_le f r
        rw [List.countP_append] at htext hrest hgap
        unfold takeEndpoint at hmiddle hgap ⊢
        omega
      · cases h

/-- The target of a reference beside a column is a part of its text. -/
theorem countP_inlineRelation?_le (h : inlineRelation? text = some (mark, right)) (f : Char → Bool) :
    right.countP f ≤ text.countP f := by
  unfold inlineRelation? at h
  obtain ⟨⟨mark', r⟩, hmark, h⟩ := Option.bind_eq_some_iff.1 h
  obtain ⟨symbol, -, hr⟩ := takeMark?_spec hmark
  dsimp only at h
  split at h
  · cases h
  · split at h
    · cases h
      have hgap := congrArg (List.countP f) hr
      have htaken := congrArg (List.countP f) (takeAtoms_append endpointCloser isEndpointChar none (trimLeft r))
      have hleft := countP_trimLeft_le f text
      have hright := countP_trimLeft_le f r
      rw [List.countP_append] at hgap htaken
      unfold takeEndpoint
      omega
    · cases h

end Endpoints

end Dbml
end SeedData
