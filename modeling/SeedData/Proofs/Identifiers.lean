/-
What identifiers are made of: whatever text one is made from, it is not empty and holds
nothing but lower-case letters, digits and underscores (`plain_normalizeChars`), it starts
with a letter and ends with no underscore (`isIdentifier_normalize`).
-/
import SeedData.Identifier
import SeedData.Proofs.Quotations

namespace SeedData.Identifier

theorem plain_flatten (inRun : Bool) (s : List Char) : ∀ c ∈ flatten inRun s, isPlain c = true := by
  induction s generalizing inRun with
  | nil => simp [flatten]
  | cons c s ih =>
    rw [flatten]
    split
    · rename_i hc
      exact List.forall_mem_cons.2 ⟨hc, ih false⟩
    · split
      · exact ih true
      · exact List.forall_mem_cons.2 ⟨by decide, ih true⟩

theorem mem_of_mem_strip {s : List Char} {c : Char} (h : c ∈ strip s) : c ∈ s := by
  rw [strip, List.mem_reverse] at h
  have hback := (List.dropWhile_sublist _).subset h
  exact (List.dropWhile_sublist _).subset (List.mem_reverse.1 hback)

theorem anchor_ne_nil (s : List Char) : anchor s ≠ [] := by
  unfold anchor
  split
  · decide
  · split <;> simp

theorem plain_anchor {s : List Char} (h : ∀ c ∈ s, isPlain c = true) :
    ∀ c ∈ anchor s, isPlain c = true := by
  unfold anchor
  split
  · exact List.all_eq_true.1 (by decide)
  · split
    · exact List.forall_mem_cons.2 ⟨by decide, List.forall_mem_cons.2 ⟨by decide, h⟩⟩
    · exact h

theorem normalizeChars_ne_nil (s : List Char) : normalizeChars s ≠ [] := anchor_ne_nil _

theorem plain_normalizeChars (s : List Char) : ∀ c ∈ normalizeChars s, isPlain c = true :=
  plain_anchor fun _ hc => plain_flatten _ _ _ (mem_of_mem_strip hc)

/-! ## Their ends -/

/-- What tables go by: a name over lower-case letters, digits and underscores that starts
with neither a digit nor an underscore and does not end with an underscore. -/
structure IsIdentifier (name : String) : Prop where
  ne_empty : name ≠ ""
  plain : ∀ c ∈ name.toList, isPlain c = true
  first : ∀ c ∈ name.toList.head?, c.isDigit = false ∧ c ≠ '_'
  last : ∀ c ∈ name.toList.getLast?, c ≠ '_'

theorem head?_anchor {s : List Char} (h : ∀ c ∈ s.head?, c ≠ '_') :
    ∀ c ∈ (anchor s).head?, c.isDigit = false ∧ c ≠ '_' := by
  unfold anchor
  split
  · intro c hc
    obtain rfl : 't' = c := Option.some.inj hc
    decide
  · rename_i d r
    split
    · rintro c ⟨⟩
      decide
    · rename_i hdigit
      rintro c ⟨⟩
      exact ⟨Bool.not_eq_true _ ▸ hdigit, h d rfl⟩

theorem getLast?_anchor {s : List Char} (h : ∀ c ∈ s.getLast?, c ≠ '_') :
    ∀ c ∈ (anchor s).getLast?, c ≠ '_' := by
  unfold anchor
  split
  · intro c hc
    obtain rfl : 'e' = c := Option.some.inj hc
    decide
  · split
    · simpa using h
    · exact h

theorem isIdentifier_normalize (raw : String) : IsIdentifier (normalize raw) := by
  have hchars : (normalize raw).toList = normalizeChars raw.toList := String.toList_ofList
  obtain ⟨hfirst, hlast⟩ := Text.ends_of_dropWhile (· == '_') (flatten false (Text.lowercase raw.toList))
  refine ⟨?_, ?_, ?_, ?_⟩
  · intro hempty
    rw [hempty] at hchars
    exact normalizeChars_ne_nil _ hchars.symm
  · rw [hchars]
    exact plain_normalizeChars _
  · rw [hchars]
    exact head?_anchor fun c hc => by simpa using hfirst c hc
  · rw [hchars]
    exact getLast?_anchor fun c hc => by simpa using hlast c hc

/-- A name that is its own identifier. -/
theorem plain_of_normalize {name : String} (h : normalize name = name) :
    name.toList ≠ [] ∧ ∀ c ∈ name.toList, isPlain c = true := by
  have hchars : normalizeChars name.toList = name.toList := by
    simpa [normalize] using congrArg String.toList h
  rw [← hchars]
  exact ⟨normalizeChars_ne_nil _, plain_normalizeChars _⟩

end SeedData.Identifier
