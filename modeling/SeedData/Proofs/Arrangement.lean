/-
Putting tables in order. What comes next is always the first table by name of those whose
parents all have their place (`Arranged`). With edges that close no cycle every table gets a
place, after all of its parents, and there is one such order only.

The program works on the numbers of the tables. Its queue keeps count, for each, of the
parents without a place (`Graph.Counted`), and so gives the names in that order
(`Graph.arranged_sort`).
-/
import Mathlib.Data.Fintype.Order
import SeedData.Proofs.CycleBreaking

namespace SeedData

open Relation

/-! ## One name after another -/

section Names

variable {names placed l l' : List String} {E : Set Edge} {u v : String}

/-- A name that can be next: it has no place yet, and its parents all have theirs. -/
structure Free (names : List String) (E : Set Edge) (placed : List String) (v : String) : Prop where
  mem : v ∈ names
  not_placed : v ∉ placed
  parents : ∀ u, Leads E u v → u ∈ placed

/-- The names of a list get their place one after another, each the first of those that can
be next, until there is no such name. -/
inductive Arranged (names : List String) (E : Set Edge) : List String → List String → Prop
  | done {placed : List String} : (∀ v, ¬ Free names E placed v) → Arranged names E placed []
  | next {placed rest : List String} {v : String} : Free names E placed v →
      (∀ u, Free names E placed u → u = v ∨ v < u) →
      Arranged names E (v :: placed) rest → Arranged names E placed (v :: rest)

/-- Nothing gets its place twice, and only names do. -/
theorem Arranged.nodup (h : Arranged names E placed l) :
    l.Nodup ∧ ∀ v ∈ l, v ∈ names ∧ v ∉ placed := by
  induction h with
  | done => simp
  | @next placed rest v hfree _ _ ih =>
    refine ⟨List.nodup_cons.2 ⟨fun hmem => (ih.2 v hmem).2 List.mem_cons_self, ih.1⟩, ?_⟩
    intro u hu
    rcases List.mem_cons.1 hu with rfl | hu
    · exact ⟨hfree.mem, hfree.not_placed⟩
    · exact ⟨(ih.2 u hu).1, fun hp => (ih.2 u hu).2 (List.mem_cons_of_mem v hp)⟩

/-- The parents of a name come before it. -/
theorem Arranged.parents_before (h : Arranged names E placed l) {before after : List String}
    (hl : l = before ++ v :: after) (hp : Leads E u v) : u ∈ placed ∨ u ∈ before := by
  induction h generalizing before with
  | done => simp at hl
  | @next placed rest w hfree _ _ ih =>
    rcases before with _ | ⟨w', before⟩
    · simp only [List.nil_append, List.cons.injEq] at hl
      obtain ⟨rfl, rfl⟩ := hl
      exact .inl (hfree.parents u hp)
    · simp only [List.cons_append, List.cons.injEq] at hl
      obtain ⟨rfl, rfl⟩ := hl
      rcases ih rfl with hu | hu
      · rcases List.mem_cons.1 hu with rfl | hu
        · exact .inr List.mem_cons_self
        · exact .inl hu
      · exact .inr (List.mem_cons_of_mem w hu)

/-- There is one order, however the names are listed. -/
theorem Arranged.det {names' : List String} (h : Arranged names E placed l) (h' : Arranged names' E placed l')
    (hnames : ∀ v, v ∈ names' ↔ v ∈ names) : l' = l := by
  have hfree : ∀ {placed v}, Free names' E placed v ↔ Free names E placed v := fun {placed v} =>
    ⟨fun hv => ⟨(hnames v).1 hv.mem, hv.not_placed, hv.parents⟩,
      fun hv => ⟨(hnames v).2 hv.mem, hv.not_placed, hv.parents⟩⟩
  induction h generalizing l' with
  | done hno =>
    cases h' with
    | done => rfl
    | next hv => exact absurd (hfree.1 hv) (hno _)
  | @next placed rest v hv hfirst _ ih =>
    cases h' with
    | done hno => exact absurd (hfree.2 hv) (hno v)
    | @next _ rest' v' hv' hfirst' hrest' =>
      have heq : v' = v := by
        rcases hfirst v' (hfree.1 hv') with heq | hlt
        · exact heq
        rcases hfirst' v (hfree.2 hv) with heq | hlt'
        · exact heq.symm
        · exact absurd (String.lt_trans hlt hlt') (String.lt_irrefl v)
      subst heq
      rw [ih hrest']

/-- Among names between which no edges close a cycle, one has no parent among them. -/
theorem exists_source (hE : ∀ {u v}, Leads E u v → u ∈ names) (hac : Acyclic E) (p : String → Prop)
    (hv : v ∈ names) (hpv : p v) : ∃ u ∈ names, p u ∧ ∀ w, Leads E w u → ¬ p w := by
  let above : {x // x ∈ names} → {x // x ∈ names} → Prop := fun a b => TransGen (Leads E) a.1 b.1
  have : IsTrans _ above := ⟨fun _ _ _ => TransGen.trans⟩
  have : Std.Irrefl above := ⟨fun a => hac a.1⟩
  obtain ⟨⟨u, hu⟩, hpu, hmin⟩ :=
    (Finite.wellFounded_of_trans_of_irrefl above).has_min {x | p x.1} ⟨⟨v, hv⟩, hpv⟩
  exact ⟨u, hu, hpu, fun w hw hpw => hmin ⟨w, hE hw⟩ hpw (.single hw)⟩

/-- Without cycles, every name gets its place. -/
theorem Arranged.complete (h : Arranged names E placed l) (hE : ∀ {u v}, Leads E u v → u ∈ names)
    (hac : Acyclic E) (hv : v ∈ names) : v ∈ placed ∨ v ∈ l := by
  induction h with
  | @done placed hno =>
    by_contra hnot
    simp only [List.not_mem_nil, or_false] at hnot
    obtain ⟨u, hu, hup, hsource⟩ := exists_source hE hac (· ∉ placed) hv hnot
    exact hno u ⟨hu, hup, fun w hw => not_not.1 (hsource w hw)⟩
  | next _ _ _ ih =>
    rcases ih with hp | hr
    · rcases List.mem_cons.1 hp with rfl | hp
      · exact .inr List.mem_cons_self
      · exact .inl hp
    · exact .inr (List.mem_cons_of_mem _ hr)

end Names

namespace Graph

variable {t : Numbering} {g : Graph t} {placed vs : List t.Node} {u v : t.Node}

/-! ## The queue -/

/-- The parents of a node that have no place yet. -/
def unplaced (g : Graph t) (placed : List t.Node) (v : t.Node) : List t.Node :=
  (g.parents v).filter (!placed.contains ·)

/-- What holds of the queue when some nodes have their place. -/
structure Counted (g : Graph t) (placed : List t.Node) (q : Queue t) : Prop where
  named : ∀ e ∈ q.ready.toList, e = t.entry e.node
  ready : ∀ v, t.entry v ∈ q.ready.toList ↔ v ∉ placed ∧ g.unplaced placed v = []
  waiting : ∀ v n, q.waiting.get? v = some n ↔ v ∉ placed ∧ n ≠ 0 ∧ n = (g.unplaced placed v).length
  /-- The parents of a node that has its place have theirs. -/
  closed : ∀ v ∈ placed, g.unplaced placed v = []

/-- Different edges with one end in common differ in the other. -/
theorem nodup_ends (g : Graph t) (v : t.Node) {near far : Arc t.Node → t.Node}
    (hinj : ∀ e e', near e = near e' → far e = far e' → e = e') :
    (g.edges.toList.filterMap fun e => if near e = v then some (far e) else none).Nodup := by
  refine List.Nodup.filterMap (fun e e' u hu hu' => ?_) (SortedSet.nodup_toList _)
  simp only [Option.mem_def, Option.ite_none_right_eq_some, Option.some.injEq] at hu hu'
  exact hinj e e' (hu.1.trans hu'.1.symm) (hu.2.trans hu'.2.symm)

theorem nodup_children (g : Graph t) (v : t.Node) : (g.children v).Nodup :=
  g.nodup_ends v fun e e' hp hc => by cases e; cases e'; simp_all

theorem nodup_parents (g : Graph t) (v : t.Node) : (g.parents v).Nodup :=
  g.nodup_ends v fun e e' hc hp => by cases e; cases e'; simp_all

theorem unplaced_eq_nil_iff : g.unplaced placed v = [] ↔ ∀ p, Leads g.arcSet p v → p ∈ placed := by
  simp [unplaced, List.filter_eq_nil_iff, mem_parents]

@[simp] theorem entry_inj : t.entry u = t.entry v ↔ u = v :=
  ⟨fun h => congrArg Numbering.Entry.node h, congrArg t.entry⟩

theorem counted_queue : Counted g [] g.queue := by
  have hun : ∀ v, g.unplaced [] v = g.parents v := fun v => by simp [unplaced]
  refine ⟨fun e he => ?_, fun v => ?_, fun v n => ?_, by simp⟩
  · simp only [queue, SortedSet.mem_toList_ofList, List.mem_map] at he
    obtain ⟨v, -, rfl⟩ := he
    rfl
  · simp [queue, hun]
  · rw [queue, SortedMap.ofList, List.foldl_map, SortedMap.get?_foldl_insert]
    simp only [List.mem_filter, List.mem_finRange, Bool.not_eq_true', List.isEmpty_eq_false_iff, hun,
      SortedMap.get?_empty, List.not_mem_nil, not_false_eq_true, true_and]
    constructor
    · intro h
      split at h
      · rename_i hv
        simp only [Option.some.injEq] at h
        exact ⟨by simpa [← h] using hv, h.symm⟩
      · cases h
    · intro hx
      obtain ⟨hn, rfl⟩ := hx
      rw [if_pos (by simpa using hn)]

/-! ## Counting down -/

end Graph

namespace Queue

variable {t : Numbering} {vs : List t.Node}

theorem get?_countDown (q : Queue t) (u v : t.Node) : (q.countDown u).waiting.get? v =
    if v = u then (q.waiting.get? v).bind fun n => if n ≤ 1 then none else some (n - 1)
    else q.waiting.get? v := by
  unfold countDown
  by_cases huv : v = u
  · subst huv
    cases h : q.waiting.get? v with
    | none => simp [h]
    | some n => by_cases hn : n ≤ 1 <;> simp [hn, SortedMap.get?_erase]
  · cases h : q.waiting.get? u with
    | none => simp [huv]
    | some n => by_cases hn : n ≤ 1 <;> simp [hn, huv, SortedMap.get?_erase, SortedMap.get?_insert]

theorem mem_ready_countDown (q : Queue t) (u : t.Node) (e : t.Entry) : e ∈ (q.countDown u).ready.toList ↔
    e ∈ q.ready.toList ∨ (e = t.entry u ∧ ∃ n ≤ 1, q.waiting.get? u = some n) := by
  unfold countDown
  cases h : q.waiting.get? u with
  | none => simp
  | some n =>
    by_cases hn : n ≤ 1
    · simp [hn, or_comm]
    · simp [hn]

theorem get?_foldl_countDown {q : Queue t} (hn : vs.Nodup) (v : t.Node) :
    (vs.foldl countDown q).waiting.get? v =
      if v ∈ vs then (q.waiting.get? v).bind fun n => if n ≤ 1 then none else some (n - 1)
      else q.waiting.get? v := by
  induction vs generalizing q with
  | nil => simp
  | cons u vs ih =>
    rw [List.nodup_cons] at hn
    rw [List.foldl_cons, ih hn.2, get?_countDown]
    by_cases huv : v = u
    · subst huv
      simp [hn.1]
    · simp [huv]

theorem mem_ready_foldl_countDown {q : Queue t} (hn : vs.Nodup) (e : t.Entry) :
    e ∈ (vs.foldl countDown q).ready.toList ↔
      e ∈ q.ready.toList ∨ ∃ u ∈ vs, e = t.entry u ∧ ∃ n ≤ 1, q.waiting.get? u = some n := by
  induction vs generalizing q with
  | nil => simp
  | cons u vs ih =>
    rw [List.nodup_cons] at hn
    have hother : ∀ v ∈ vs, (q.countDown u).waiting.get? v = q.waiting.get? v := fun v hv => by
      rw [get?_countDown, if_neg fun he : v = u => hn.1 (he ▸ hv)]
    rw [List.foldl_cons, ih hn.2, mem_ready_countDown, or_assoc, List.exists_mem_cons_iff]
    refine or_congr_right (or_congr_right (exists_congr fun v => and_congr_right fun hv => ?_))
    rw [hother v hv]

end Queue

/-! ## One place after another -/

namespace Graph

variable {t : Numbering} {g : Graph t} {placed vs : List t.Node} {u v : t.Node}

theorem unplaced_cons : g.unplaced (v :: placed) u = (g.unplaced placed u).filter fun p => p ≠ v := by
  rw [unplaced, unplaced, List.filter_filter]
  exact List.filter_congr fun p _ => by simp

/-- Only the children of a node that gets its place have one unplaced parent less. -/
theorem unplaced_cons_of_not_leads (h : ¬ Leads g.arcSet v u) :
    g.unplaced (v :: placed) u = g.unplaced placed u := by
  rw [unplaced_cons, List.filter_eq_self]
  intro p hp
  have hl : Leads g.arcSet p u := mem_parents.1 (List.mem_filter.1 hp).1
  simp only [decide_eq_true_eq]
  intro heq
  subst heq
  exact h hl

theorem length_unplaced_of_leads (hv : v ∉ placed) (h : Leads g.arcSet v u) :
    (g.unplaced placed u).length = (g.unplaced (v :: placed) u).length + 1 := by
  have hn : (g.unplaced placed u).Nodup := (nodup_parents g u).filter _
  have hmem : v ∈ g.unplaced placed u := List.mem_filter.2 ⟨mem_parents.2 h, by simpa using hv⟩
  have herase : g.unplaced (v :: placed) u = (g.unplaced placed u).erase v := by
    rw [unplaced_cons, hn.erase_eq_filter]
    exact List.filter_congr fun p _ => by by_cases hp : p = v <;> simp [hp]
  have hpos := List.length_pos_of_mem hmem
  rw [herase, List.length_erase_of_mem hmem]
  omega

variable {q : Queue t} {first : t.Entry} {ready : SortedSet t.Entry}

theorem Counted.popped (h : Counted g placed q) (hpop : SortedSet.popFirst? q.ready = some (first, ready)) :
    first = t.entry first.node ∧ first.node ∉ placed ∧ g.unplaced placed first.node = [] ∧
      ∀ e, e ∈ ready.toList ↔ e ≠ first ∧ e ∈ q.ready.toList := by
  have hl := SortedSet.toList_of_popFirst? hpop
  have hn := SortedSet.nodup_toList q.ready
  rw [hl, List.nodup_cons] at hn
  have hfirst : first ∈ q.ready.toList := by simp [hl]
  have hnamed := h.named first hfirst
  obtain ⟨hv, hun⟩ := (h.ready first.node).1 (hnamed ▸ hfirst)
  refine ⟨hnamed, hv, hun, fun e => ?_⟩
  rw [hl, List.mem_cons]
  constructor
  · intro he
    exact ⟨fun heq => hn.1 (heq ▸ he), .inr he⟩
  · intro hx
    obtain ⟨hne, he⟩ := hx
    exact he.resolve_left hne

/-- The first node that can be next gets its place. -/
theorem Counted.place (h : Counted g placed q) (hpop : SortedSet.popFirst? q.ready = some (first, ready)) :
    Counted g (first.node :: placed)
      ((g.children first.node).foldl Queue.countDown { q with ready := ready }) := by
  obtain ⟨hnamed, hv, hvun, hready⟩ := h.popped hpop
  -- A child of the node is neither placed nor ready, since the node was not placed.
  have hchild : ∀ {u}, Leads g.arcSet first.node u →
      u ≠ first.node ∧ u ∉ placed ∧ t.entry u ∉ q.ready.toList := by
    intro u hl
    have hne : g.unplaced placed u ≠ [] := fun he => hv (unplaced_eq_nil_iff.1 he _ hl)
    exact ⟨fun he => hne (he ▸ hvun), fun hu => hne (h.closed u hu), fun hu => hne ((h.ready u).1 hu).2⟩
  refine ⟨fun e he => ?_, fun u => ?_, fun u n => ?_, fun u hu => ?_⟩
  · rw [Queue.mem_ready_foldl_countDown (nodup_children g _), hready] at he
    rcases he with he | ⟨u, -, rfl, -⟩
    · exact h.named e he.2
    · rfl
  · have hother : t.entry u ≠ first ↔ u ≠ first.node := by
      rw [hnamed]
      exact entry_inj.not
    rw [Queue.mem_ready_foldl_countDown (nodup_children g _), hready, hother, List.mem_cons, not_or]
    simp only [entry_inj, mem_children]
    by_cases hl : Leads g.arcSet first.node u
    · obtain ⟨hne, hu, hnot⟩ := hchild hl
      have hlen := length_unplaced_of_leads hv hl
      simp only [hnot, and_false, false_or, h.waiting, hne, hu, not_false_eq_true, true_and, ne_eq]
      constructor
      · intro hx
        obtain ⟨_, -, rfl, n, hn, -, -, rfl⟩ := hx
        exact List.length_eq_zero_iff.1 (by omega)
      · intro hnil
        rw [hnil] at hlen
        exact ⟨u, hl, rfl, 1, Nat.le_refl 1, hu, Nat.one_ne_zero, hlen.symm⟩
    · rw [unplaced_cons_of_not_leads hl, h.ready]
      constructor
      · intro hx
        rcases hx with ⟨hne, hfree⟩ | ⟨u', hl', rfl, -⟩
        · exact ⟨⟨hne, hfree.1⟩, hfree.2⟩
        · exact absurd hl' hl
      · intro hx
        exact .inl ⟨hx.1.1, hx.1.2, hx.2⟩
  · rw [Queue.get?_foldl_countDown (nodup_children g _)]
    simp only [mem_children, List.mem_cons, not_or]
    split
    · rename_i hl
      have hl := mem_children.1 hl
      obtain ⟨hne, hu, -⟩ := hchild hl
      have hlen := length_unplaced_of_leads hv hl
      simp only [Option.bind_eq_some_iff, h.waiting, hne, hu, not_false_eq_true, true_and]
      constructor
      · intro hx
        obtain ⟨m, ⟨-, rfl⟩, hm⟩ := hx
        split at hm
        · cases hm
        · simp only [Option.some.injEq] at hm
          exact ⟨by omega, by omega⟩
      · intro hx
        obtain ⟨hn, rfl⟩ := hx
        refine ⟨_, ⟨?_, rfl⟩, ?_⟩
        · omega
        · rw [if_neg (by omega), Option.some.injEq]
          omega
    · rename_i hl
      rw [unplaced_cons_of_not_leads fun h => hl (mem_children.2 h), h.waiting]
      refine ⟨fun hu => ⟨⟨?_, hu.1⟩, hu.2⟩, fun hu => ⟨hu.1.2, hu.2⟩⟩
      intro heq
      subst heq
      rw [hvun] at hu
      exact hu.2.1 hu.2.2
  · rw [unplaced_cons]
    rcases List.mem_cons.1 hu with rfl | hu
    · rw [hvun]
      rfl
    · rw [h.closed u hu]
      rfl

/-! ## The order by name -/

/-- A name can be next exactly if its node can. -/
theorem free_iff : Free t.names g.edgeSet (placed.map t.name) (t.name v) ↔
    v ∉ placed ∧ g.unplaced placed v = [] := by
  have hmem : ∀ {u}, t.name u ∈ placed.map t.name ↔ u ∈ placed :=
    List.mem_map_of_injective Numbering.name_injective
  rw [unplaced_eq_nil_iff]
  constructor
  · intro h
    exact ⟨fun hv => h.not_placed (hmem.2 hv), fun p hp => hmem.1 (h.parents _ (leads_edgeSet_iff.2 hp))⟩
  · intro hx
    obtain ⟨hv, hparents⟩ := hx
    refine ⟨Numbering.name_mem v, fun h => hv (hmem.1 h), fun a ha => ?_⟩
    obtain ⟨p, v', rfl, hv', hl⟩ := exists_of_leads ha
    rw [Numbering.name_injective hv'] at hl
    exact hmem.2 (hparents p hl)

theorem exists_node_of_free {a : String} {names : List String} (h : Free t.names g.edgeSet names a) :
    ∃ v, t.name v = a := by
  obtain ⟨v, hv⟩ := Numbering.mem_names_iff.1 h.mem
  exact ⟨v, Numbering.node?_eq_some_iff.1 hv⟩

theorem arrange_of_none (h : SortedSet.popFirst? q.ready = none) : g.arrange q = [] := by
  rw [arrange]
  split
  · rfl
  · rename_i hp _
    rw [h] at hp
    cases hp

theorem arrange_of_some (h : SortedSet.popFirst? q.ready = some (first, ready)) : g.arrange q =
    first.name :: g.arrange ((g.children first.node).foldl Queue.countDown { q with ready := ready }) := by
  rw [arrange]
  split
  · rename_i hn
    rw [Option.attach_eq_none_iff, h] at hn
    cases hn
  · rename_i hp _
    rw [h] at hp
    cases hp
    rfl

/-- Entries of different nodes stand in the order of their names. -/
theorem name_lt_of_entry_lt (h : t.entry u < t.entry v) : t.name u < t.name v := by
  rcases h with hlt | ⟨heq, hlt⟩
  · exact hlt
  · rw [Numbering.name_injective heq] at hlt
    exact absurd hlt (KeyOrder.lt_irrefl v)

/-- A queue that is kept up to date gives the names of its nodes in this order. -/
theorem arranged_arrange (h : Counted g placed q) :
    Arranged t.names g.edgeSet (placed.map t.name) (g.arrange q) := by
  induction q using arrange.induct g generalizing placed with
  | case1 q hnone =>
    have hpop := Option.attach_eq_none_iff.1 hnone
    rw [arrange_of_none hpop]
    refine .done fun a ha => ?_
    obtain ⟨v, rfl⟩ := exists_node_of_free ha
    have hr := (h.ready v).2 (free_iff.1 ha)
    rw [SortedSet.popFirst?_eq_none_iff.1 hpop] at hr
    exact List.not_mem_nil hr
  | case2 q first ready hpop _ ih =>
    obtain ⟨hnamed, hv, hvun, hready⟩ := h.popped hpop
    have hrest := ih (h.place hpop)
    have hname : first.name = t.name first.node := congrArg Numbering.Entry.name hnamed
    rw [arrange_of_some hpop, hname]
    refine .next (free_iff.2 ⟨hv, hvun⟩) (fun a ha => ?_) hrest
    obtain ⟨u, rfl⟩ := exists_node_of_free ha
    by_cases hu : u = first.node
    · exact .inl (congrArg t.name hu)
    · have hne : t.entry u ≠ first := by
        rw [hnamed]
        exact entry_inj.not.2 hu
      have hlt := SortedSet.lt_of_popFirst? hpop ((hready _).2 ⟨hne, (h.ready u).2 (free_iff.1 ha)⟩)
      rw [hnamed] at hlt
      exact .inr (name_lt_of_entry_lt hlt)

/-- The names of a graph are put in this order. -/
theorem arranged_sort (g : Graph t) : Arranged t.names g.edgeSet [] g.sort := arranged_arrange counted_queue

/-- Only names lead to others. -/
theorem mem_names_of_leads {a b : String} (h : Leads g.edgeSet a b) : a ∈ t.names := by
  obtain ⟨u, -, rfl, -⟩ := exists_of_leads h
  exact Numbering.name_mem u

end Graph
end SeedData
