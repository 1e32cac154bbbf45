/-
What a draft says about its text plays no part in reading. `Draft.silent` forgets it, and
drafts that are the same when silent are read alike (`tied_silent`): they stay so along any
text and come to the same schema (`parse_eq_of_silent`).
-/
import SeedData.Proofs.Simulation

namespace SeedData.Dbml

namespace Draft

/-- The draft without what there is to say about the text. -/
def silent (d : Draft) : Draft := { d with notices := [] }

@[simp] theorem notice_silent (d : Draft) (n : Notice) : (d.notice n).silent = d.silent := rfl

/-- What does not look at what there is to say about the text is the same of drafts that
are the same when silent. -/
theorem apply_eq_of_silent {α : Type} {f : Draft → α} (hf : ∀ d, f d.silent = f d) {d e : Draft}
    (h : d.silent = e.silent) : f d = f e := by rw [← hf d, h, hf e]

/-- The draft of a step, silent, and what is left to read. -/
def Step.silent (s : Step) : Step := (s.1.silent, s.2)

theorem Step.silent_eq_iff {s s' : Step} :
    s.silent = s'.silent ↔ Step.Tied (fun d e => d.silent = e.silent) s s' := Prod.ext_iff

theorem tied_silent : Tied fun d e => d.silent = e.silent where
  blocks h := apply_eq_of_silent (f := Draft.blocks) (fun _ => rfl) h
  header h := apply_eq_of_silent (f := Draft.header) (fun _ => rfl) h
  notice_left _ h := h
  notice_right _ h := h
  setBlocks blocks h := congrArg (fun d : Draft => { d with blocks }) h
  setHeader header h := congrArg (fun d : Draft => { d with header }) h
  link l h := congrArg (fun d : Draft => { d with links := d.links ++ [l] }) h
  abbreviate a h := congrArg (fun d : Draft => { d with aliases := a :: d.aliases }) h
  upsert t h := congrArg (fun d : Draft => { d with catalog := d.catalog.upsert t }) h
  replaceEnum type h := congrArg (fun d : Draft => { d with catalog := d.catalog.replaceEnum type }) h

theorem addTable_said (d : Draft) (t : Table) :
    (d.addTable t).silent = { d with catalog := d.catalog.upsert t }.silent := by
  unfold addTable
  dsimp only
  split <;> rfl

variable {d e : Draft}

theorem openOrWait_eq_of_silent (header : Block) (line : List Char) (h : d.silent = e.silent) :
    (d.openOrWait header line).silent = (e.openOrWait header line).silent :=
  Step.silent_eq_iff.2 (tied_silent.openOrWait header line h)

theorem topLevelLine_eq_of_silent (line : List Char) (h : d.silent = e.silent) :
    (d.topLevelLine line).silent = (e.topLevelLine line).silent :=
  Step.silent_eq_iff.2 (tied_silent.topLevelLine line h)

/-! ## Reading -/

/-- A line is read in the innermost block if no header waits. -/
theorem step_of_trim {code : List Char} {c : Char} {r : List Char} (htrim : Text.trim code = c :: r)
    (hheader : d.header = none) : d.step code = d.lineIn (c :: r) := by
  rw [step, htrim, hheader]

/-- A line is read in the innermost block, if it is not the brace that a header waits for. -/
theorem step_silent {code : List Char} {c : Char} {r : List Char} (htrim : Text.trim code = c :: r)
    (hbrace : d.header = none ∨ c ≠ '\x7b') :
    (d.step code).silent = (({ d with header := none } : Draft).lineIn (c :: r)).silent := by
  cases hheader : d.header with
  | none =>
    have hsame : ({ d with header := none } : Draft) = d := by rw [← hheader]
    rw [step_of_trim htrim hheader, hsame]
  | some header =>
    rw [step, htrim, hheader]
    dsimp only
    rw [if_neg (hbrace.resolve_left (by simp [hheader]))]
    exact Step.silent_eq_iff.2 (tied_silent.lineIn (c :: r) rfl)

/-- The references after a line that is read in the innermost block. -/
theorem links_of_step {code : List Char} {links : List Link} (hne : Text.trim code ≠ [])
    (hbrace : d.header ≠ none → (Text.trim code).head? ≠ some '\x7b')
    (hline : ∀ e : Draft, e.blocks = d.blocks → e.links = d.links → (e.lineIn (Text.trim code)).1.links = links) :
    (d.step code).1.links = links := by
  cases htrim : Text.trim code with
  | nil => exact absurd htrim hne
  | cons c r =>
    rw [htrim] at hbrace hline
    have hcases : d.header = none ∨ c ≠ '\x7b' := by
      by_cases hheader : d.header = none
      · exact .inl hheader
      · exact .inr fun hc => hbrace hheader (hc ▸ rfl)
    have hsilent := step_silent htrim hcases
    rw [← hline { d with header := none } rfl rfl]
    have hlinks := congrArg (fun s : Step => s.1.links) hsilent
    exact hlinks

theorem read_eq_of_silent (h : d.silent = e.silent) (line : List Char) :
    (d.read line).silent = (e.read line).silent := tied_silent.read line h

/-- The draft of a step when what is left of its line is read too. -/
def Step.whole (s : Step) : Draft :=
  match s.2 with
  | none => s.1
  | some inner => if inner.closes then ((s.1.read inner.text).step ['\x7d']).1 else s.1.read inner.text

theorem read_eq_whole (d : Draft) (line : List Char) : d.read line = (d.step line).whole := by
  obtain ⟨⟨d', inner⟩, h⟩ : ∃ s, d.step line = s := ⟨_, rfl⟩
  rw [h]
  cases inner with
  | none => exact read_of_none h
  | some inner => exact read_of_some h

theorem whole_eq_of_silent {s s' : Step} (h : s.silent = s'.silent) : s.whole.silent = s'.whole.silent := by
  obtain ⟨d, inner⟩ := s
  obtain ⟨e, inner'⟩ := s'
  obtain ⟨hsilent, rfl⟩ : d.silent = e.silent ∧ inner = inner' := Step.silent_eq_iff.1 h
  cases inner with
  | none => exact hsilent
  | some inner =>
    have hinner := read_eq_of_silent hsilent inner.text
    unfold Step.whole
    dsimp only
    split
    · exact (tied_silent.step _ hinner).1
    · exact hinner

theorem foldl_read_eq_of_silent (h : d.silent = e.silent) (lines : List (List Char)) :
    (lines.foldl read d).silent = (lines.foldl read e).silent := tied_silent.foldl_read lines h

theorem finish_eq_of_silent (h : d.silent = e.silent) (carry : Carry) :
    (d.finish carry).silent = (e.finish carry).silent := tied_silent.finish carry h

end Draft

/-- What a text is as a schema, when its draft is the same as another if both are silent. -/
theorem parse_of_silent {text : String} {d : Draft} (h : (draft text.toList).silent = d.silent) :
    (parse text).1 = if d.catalog.tables.isEmpty then none else some d.schema := by
  have hcatalog := Draft.apply_eq_of_silent (f := Draft.catalog) (fun _ => rfl) h
  have hschema := Draft.apply_eq_of_silent (f := Draft.schema) (fun _ => rfl) h
  unfold parse
  dsimp only
  rw [hcatalog, hschema]
  split <;> rfl

/-- Texts whose drafts are the same when silent are the same schema, or both none. -/
theorem parse_eq_of_silent {text text' : String}
    (h : (draft text.toList).silent = (draft text'.toList).silent) : (parse text).1 = (parse text').1 :=
  (parse_of_silent h).trans (parse_of_silent rfl).symm

end SeedData.Dbml
