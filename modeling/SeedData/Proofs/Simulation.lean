/-
Two readings side by side. The reader looks at nothing of a draft but its open blocks and the
header that waits, so a relation between drafts that are the same in these (`Draft.Tied`) is
kept by each of its functions (`Tied.step`) and along any text (`Tied.foldl_read`), if what
the reader does to a draft at once keeps it.
-/
import SeedData.Proofs.DraftHistory

namespace SeedData.Dbml

namespace Draft

/-- `R` is between drafts with the same open blocks and the same header that waits. It is
kept by what the reader does to both at once, and by what it says about either. -/
structure Tied (R : Draft → Draft → Prop) : Prop where
  blocks : ∀ {d e}, R d e → d.blocks = e.blocks
  header : ∀ {d e}, R d e → d.header = e.header
  notice_left : ∀ {d e} (n : Notice), R d e → R (d.notice n) e
  notice_right : ∀ {d e} (n : Notice), R d e → R d (e.notice n)
  setBlocks : ∀ {d e} (blocks : List Block), R d e → R { d with blocks } { e with blocks }
  setHeader : ∀ {d e} (header : Option Block), R d e → R { d with header } { e with header }
  link : ∀ {d e} (l : Link), R d e → R { d with links := d.links ++ [l] } { e with links := e.links ++ [l] }
  abbreviate : ∀ {d e} (a : String × String), R d e →
    R { d with aliases := a :: d.aliases } { e with aliases := a :: e.aliases }
  upsert : ∀ {d e} (t : Table), R d e →
    R { d with catalog := d.catalog.upsert t } { e with catalog := e.catalog.upsert t }
  replaceEnum : ∀ {d e} (type : EnumType), R d e →
    R { d with catalog := d.catalog.replaceEnum type } { e with catalog := e.catalog.replaceEnum type }

/-- Steps to drafts that `R` is between, with the same left to be read. -/
def Step.Tied (R : Draft → Draft → Prop) (s s' : Step) : Prop := R s.1 s'.1 ∧ s.2 = s'.2

namespace Tied

variable {R : Draft → Draft → Prop} {d e : Draft} {line : List Char}

/-! ## What the functions of the reader do -/

theorem notice (hR : Tied R) (n m : Notice) (h : R d e) : R (d.notice n) (e.notice m) :=
  hR.notice_left n (hR.notice_right m h)

theorem enter (hR : Tied R) (b : Block) (h : R d e) : R (d.enter b) (e.enter b) := by
  unfold Draft.enter
  rw [← hR.blocks h]
  exact hR.setBlocks _ h

theorem addTable (hR : Tied R) (t : Table) (h : R d e) : R (d.addTable t) (e.addTable t) := by
  have hadded := hR.upsert t (hR.notice (.tableParsed t.name t.columns.length)
    (.tableParsed t.name t.columns.length) h)
  unfold Draft.addTable
  dsimp only
  -- Either side may have had a table of that name, and says so.
  split
  · split
    · exact hR.notice _ _ hadded
    · exact hR.notice_left _ hadded
  · split
    · exact hR.notice_right _ hadded
    · exact hadded

theorem close (hR : Tied R) (h : R d e) : R d.close e.close := by
  unfold Draft.close
  rw [← hR.blocks h]
  split
  · exact h
  · exact hR.addTable _ (hR.setBlocks _ h)
  · rename_i type outer _
    exact hR.replaceEnum type (hR.setBlocks outer h)
  · exact hR.setBlocks _ h

theorem addLink (hR : Tied R) (left : Endpoint) (mark : Mark) (right : Endpoint) (text : List Char)
    (h : R d e) : R (d.addLink left mark right text) (e.addLink left mark right text) := by
  unfold Draft.addLink
  split
  · exact hR.link _ h
  · exact hR.notice _ _ h

theorem relation (hR : Tied R) (text : List Char) (h : R d e) : R (d.relation text) (e.relation text) := by
  unfold Draft.relation
  split
  · exact hR.notice _ _ h
  · split
    · exact hR.addLink _ _ _ _ h
    · exact hR.notice _ _ h

theorem inlineRelation (hR : Tied R) (here : Endpoint) (text : List Char) (h : R d e) :
    R (d.inlineRelation here text) (e.inlineRelation here text) := by
  unfold Draft.inlineRelation
  split
  · exact hR.notice _ _ h
  · split
    · exact hR.addLink _ _ _ _ h
    · exact hR.notice _ _ h

/-- What keeps `R` at each step keeps it along a list. -/
theorem foldl {α : Type} {f : Draft → α → Draft} (hf : ∀ {d e} a, R d e → R (f d a) (f e a)) (l : List α)
    (h : R d e) : R (l.foldl f d) (l.foldl f e) := by
  induction l generalizing d e with
  | nil => exact h
  | cons a l ih => exact ih (hf a h)

theorem columnLine (hR : Tied R) (t : Table) (spelled : String) (outer : List Block) (line : List Char)
    (h : R d e) : R (d.columnLine t spelled outer line) (e.columnLine t spelled outer line) := by
  unfold Draft.columnLine
  dsimp only
  split
  · exact hR.notice _ _ h
  · split
    · exact hR.notice _ _ h
    · split
      · exact hR.notice _ _ h
      · exact foldl (fun text => hR.inlineRelation _ text) _ (hR.setBlocks _ h)

theorem labelLine (hR : Tied R) (type : EnumType) (outer : List Block) (line : List Char) (h : R d e) :
    R (d.labelLine type outer line) (e.labelLine type outer line) := by
  unfold Draft.labelLine
  dsimp only
  split
  · exact h
  · exact hR.setBlocks _ h

theorem skippedLine (hR : Tied R) (depth : Nat) (outer : List Block) (line : List Char) (h : R d e) :
    R (d.skippedLine depth outer line) (e.skippedLine depth outer line) := by
  unfold Draft.skippedLine
  dsimp only
  split <;> exact hR.setBlocks _ h

theorem openOrWait (hR : Tied R) (header : Block) (line : List Char) (h : R d e) :
    Step.Tied R (d.openOrWait header line) (e.openOrWait header line) := by
  unfold Draft.openOrWait
  split
  · exact ⟨hR.setHeader _ h, rfl⟩
  · exact ⟨hR.enter header h, rfl⟩

theorem topLevelLine (hR : Tied R) (line : List Char) (h : R d e) :
    Step.Tied R (d.topLevelLine line) (e.topLevelLine line) := by
  unfold Draft.topLevelLine
  dsimp only
  split
  · unfold tableHeader
    split
    · exact hR.openOrWait _ _ (hR.notice _ _ h)
    · split
      · exact hR.openOrWait _ _ h
      · exact hR.openOrWait _ _ (hR.abbreviate _ h)
  · split
    · unfold refDirective
      split
      · split
        · exact ⟨hR.relation _ h, rfl⟩
        · exact hR.openOrWait _ _ h
      · exact hR.openOrWait _ _ h
    · split
      · unfold enumHeader
        split
        · exact hR.openOrWait _ _ (hR.notice _ _ h)
        · exact hR.openOrWait _ _ h
      · split
        · exact ⟨hR.notice _ _ h, rfl⟩
        · split
          · exact hR.openOrWait _ _ (hR.notice _ _ h)
          · split
            · exact ⟨h, rfl⟩
            · exact ⟨hR.notice _ _ h, rfl⟩

theorem tableLine (hR : Tied R) (t : Table) (spelled : String) (outer : List Block) (line : List Char)
    (h : R d e) : Step.Tied R (d.tableLine t spelled outer line) (e.tableLine t spelled outer line) := by
  unfold Draft.tableLine
  dsimp only
  split
  · exact ⟨hR.close h, rfl⟩
  · split
    · exact hR.openOrWait _ _ h
    · split
      · split
        · exact hR.openOrWait _ _ h
        · exact ⟨h, rfl⟩
      · split
        · split
          · exact ⟨hR.relation _ h, rfl⟩
          · exact ⟨h, rfl⟩
        · exact ⟨hR.columnLine t spelled outer line h, rfl⟩

theorem lineIn (hR : Tied R) (line : List Char) (h : R d e) :
    Step.Tied R (d.lineIn line) (e.lineIn line) := by
  unfold Draft.lineIn
  rw [← hR.blocks h]
  split
  · exact hR.topLevelLine line h
  · exact ⟨hR.skippedLine _ _ line h, rfl⟩
  · exact hR.tableLine _ _ _ line h
  · split
    · exact ⟨hR.close h, rfl⟩
    · exact ⟨hR.relation line h, rfl⟩
  · split
    · exact ⟨hR.close h, rfl⟩
    · exact ⟨hR.labelLine _ _ line h, rfl⟩

theorem step (hR : Tied R) (code : List Char) (h : R d e) : Step.Tied R (d.step code) (e.step code) := by
  unfold Draft.step
  rw [← hR.header h]
  split
  · exact ⟨h, rfl⟩
  · split
    · exact hR.lineIn _ h
    · have hgiven := hR.setHeader none h
      dsimp only
      split
      · exact ⟨hR.enter _ hgiven, rfl⟩
      · exact hR.lineIn _ (hR.notice _ _ hgiven)

/-! ## Reading -/

theorem read (hR : Tied R) (line : List Char) (h : R d e) : R (d.read line) (e.read line) := by
  -- What a line leaves to be read is shorter than the line.
  induction hn : line.length using Nat.strongRecOn generalizing d e line with
  | ind n ih =>
    obtain ⟨hstep, hinner⟩ := hR.step line h
    obtain ⟨⟨d', inner⟩, hd⟩ : ∃ s, d.step line = s := ⟨_, rfl⟩
    obtain ⟨⟨e', inner'⟩, he⟩ : ∃ s, e.step line = s := ⟨_, rfl⟩
    rw [hd, he] at hstep hinner
    obtain rfl : inner = inner' := hinner
    cases inner with
    | none => rwa [read_of_none hd, read_of_none he]
    | some inner =>
      have hread := ih _ (hn ▸ step_shorter (by rw [hd])) inner.text hstep rfl
      rw [read_of_some hd, read_of_some he]
      split
      · exact (hR.step _ hread).1
      · exact hread

theorem foldl_read (hR : Tied R) (lines : List (List Char)) (h : R d e) :
    R (lines.foldl Draft.read d) (lines.foldl Draft.read e) :=
  foldl (fun line => hR.read line) lines h

theorem closeEach (hR : Tied R) (blocks : List Block) (h : R d e) :
    R (d.closeEach blocks) (e.closeEach blocks) := by
  induction blocks generalizing d e with
  | nil => exact h
  | cons b blocks ih => exact ih (hR.close h)

theorem finish (hR : Tied R) (carry : Carry) (h : R d e) : R (d.finish carry) (e.finish carry) := by
  have hend : ∀ {d e : Draft}, R d e →
      R (if d.blocks.isEmpty then d else (d.notice (.unterminatedBlock d.blocks.length)).closeEach d.blocks)
        (if e.blocks.isEmpty then e
          else (e.notice (.unterminatedBlock e.blocks.length)).closeEach e.blocks) := by
    intro d e h
    rw [← hR.blocks h]
    split
    · exact h
    · exact hR.closeEach _ (hR.notice _ _ h)
  unfold Draft.finish
  dsimp only
  split
  · exact hend (hR.notice _ _ h)
  · exact hend h

end Tied
end Draft
end SeedData.Dbml
