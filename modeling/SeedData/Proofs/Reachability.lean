/-
Which nodes a set of edges leads to, and that a walk meets exactly these: `mem_walk_iff`
for a walk that keeps to the nodes not met before, `reaches_iff` for a whole graph.

A graph has its edges between numbers. Since different numbers have different names, it
leads from one number to another exactly if the edges between the names lead from one
name to the other (`reaches_edgeSet_iff`); what is found by number can be told by name.
-/
import Mathlib.Data.List.Nodup
import Mathlib.Data.Set.Image
import Mathlib.Logic.Relation
import SeedData.Order.TableOrder

namespace SeedData

open Relation

section Edges

variable {ν : Type}

/-- An edge leads from the first node to the second. -/
def Leads (E : Set (Arc ν)) (a b : ν) : Prop := (⟨a, b⟩ : Arc ν) ∈ E

/-- Edges lead from the first node to the second, any number of them one after
another. -/
def Reaches (E : Set (Arc ν)) : ν → ν → Prop := ReflTransGen (Leads E)

/-- Each of the nodes can be reached from the other. -/
def Mutual (E : Set (Arc ν)) (a b : ν) : Prop := Reaches E a b ∧ Reaches E b a

variable {E : Set (Arc ν)} {a b c : ν}

theorem Reaches.refl (E : Set (Arc ν)) (a : ν) : Reaches E a a := ReflTransGen.refl

theorem Reaches.trans (hab : Reaches E a b) (hbc : Reaches E b c) : Reaches E a c :=
  ReflTransGen.trans hab hbc

theorem Reaches.tail (hab : Reaches E a b) (hbc : Leads E b c) : Reaches E a c :=
  ReflTransGen.tail hab hbc

theorem Reaches.head (hab : Leads E a b) (hbc : Reaches E b c) : Reaches E a c :=
  ReflTransGen.head hab hbc

theorem Mutual.refl (E : Set (Arc ν)) (a : ν) : Mutual E a a := ⟨.refl E a, .refl E a⟩

theorem Mutual.symm (h : Mutual E a b) : Mutual E b a := ⟨h.2, h.1⟩

theorem Mutual.trans (hab : Mutual E a b) (hbc : Mutual E b c) : Mutual E a c :=
  ⟨hab.1.trans hbc.1, hbc.2.trans hab.2⟩

end Edges

/-! ## Walks -/

section Walks

variable {ν : Type}

/-- A step of a walk to a node that has not been met. -/
def WalkStep (next : ν → List ν) (fresh : List ν) (a b : ν) : Prop :=
  b ∈ next a ∧ b ∈ fresh

variable [DecidableEq ν] {next : ν → List ν} {fresh todo : List ν} {u v w : ν}

/-- What is left of a walk when one more node has been met: it ends there, it never
comes there, or it goes on from one of its neighbours and does not come back. -/
theorem walkStep_split (hf : fresh.Nodup) (h : ReflTransGen (WalkStep next fresh) u w) :
    w = v ∨ (u ≠ v ∧ ReflTransGen (WalkStep next (fresh.erase v)) u w) ∨
      ∃ c ∈ next v, c ∈ fresh.erase v ∧ ReflTransGen (WalkStep next (fresh.erase v)) c w := by
  induction h with
  | refl =>
    by_cases huv : u = v
    · exact .inl huv
    · exact .inr (.inl ⟨huv, .refl⟩)
  | @tail x y _ hxy ih =>
    by_cases hyv : y = v
    · exact .inl hyv
    have hy : y ∈ fresh.erase v := hf.mem_erase_iff.2 ⟨hyv, hxy.2⟩
    rcases ih with rfl | ⟨huv, hux⟩ | ⟨c, hc, hcf, hcx⟩
    · exact .inr (.inr ⟨y, hxy.1, hy, .refl⟩)
    · exact .inr (.inl ⟨huv, hux.tail ⟨hxy.1, hy⟩⟩)
    · exact .inr (.inr ⟨c, hc, hcf, hcx.tail ⟨hxy.1, hy⟩⟩)

theorem walkStep_mono (h : ReflTransGen (WalkStep next (fresh.erase v)) u w) :
    ReflTransGen (WalkStep next fresh) u w :=
  ReflTransGen.mono (fun _ _ hs => ⟨hs.1, List.mem_of_mem_erase hs.2⟩) u w h

/-- A walk meets the fresh nodes that fresh nodes lead to from those to look at. -/
theorem mem_walk_iff (hf : fresh.Nodup) : w ∈ Graph.walk next fresh todo ↔
    ∃ u ∈ todo, u ∈ fresh ∧ ReflTransGen (WalkStep next fresh) u w := by
  induction fresh, todo using Graph.walk.induct next with
  | case1 fresh => simp [Graph.walk]
  | case2 fresh v rest hv ih =>
    rw [Graph.walk, if_pos hv, List.mem_cons, ih (hf.erase v)]
    constructor
    · intro hx
      rcases hx with rfl | ⟨u, hu, huf, hw⟩
      · exact ⟨w, by simp, hv, .refl⟩
      · have hu' := List.mem_of_mem_erase huf
        rcases List.mem_append.1 hu with hn | hr
        · exact ⟨v, by simp, hv, .head ⟨hn, hu'⟩ (walkStep_mono hw)⟩
        · exact ⟨u, by simp [hr], hu', walkStep_mono hw⟩
    · intro hx
      obtain ⟨u, hu, huf, hw⟩ := hx
      rcases walkStep_split (v := v) hf hw with rfl | ⟨huv, hw'⟩ | ⟨c, hc, hcf, hw'⟩
      · exact .inl rfl
      · have hr : u ∈ rest := (List.mem_cons.1 hu).resolve_left huv
        exact .inr ⟨u, by simp [hr], hf.mem_erase_iff.2 ⟨huv, huf⟩, hw'⟩
      · exact .inr ⟨c, by simp [hc], hcf, hw'⟩
  | case3 fresh v rest hv ih =>
    rw [Graph.walk, if_neg hv, ih hf]
    constructor
    · intro hx
      obtain ⟨u, hu, h⟩ := hx
      exact ⟨u, by simp [hu], h⟩
    · intro hx
      obtain ⟨u, hu, huf, h⟩ := hx
      have hr : u ∈ rest := (List.mem_cons.1 hu).resolve_left fun he => hv (he ▸ huf)
      exact ⟨u, hr, huf, h⟩

end Walks

/-! ## Graphs -/

namespace Graph

variable {t : Numbering} {g : Graph t} {u v : t.Node}

/-- The edges of a graph as a set. -/
def arcSet (g : Graph t) : Set (Arc t.Node) := {e | e ∈ g.edges.toList}

theorem mem_arcSet {e : Arc t.Node} : e ∈ g.arcSet ↔ e ∈ g.edges.toList := Iff.rfl

theorem mem_children : v ∈ g.children u ↔ Leads g.arcSet u v := by
  simp only [children, List.mem_filterMap, Leads, mem_arcSet]
  constructor
  · intro hx
    obtain ⟨⟨p, c⟩, he, hc⟩ := hx
    simp only [Option.ite_none_right_eq_some, Option.some.injEq] at hc
    obtain ⟨rfl, rfl⟩ := hc
    exact he
  · intro he
    exact ⟨⟨u, v⟩, he, by simp⟩

theorem mem_parents : u ∈ g.parents v ↔ Leads g.arcSet u v := by
  simp only [parents, List.mem_filterMap, Leads, mem_arcSet]
  constructor
  · intro hx
    obtain ⟨⟨p, c⟩, he, hp⟩ := hx
    simp only [Option.ite_none_right_eq_some, Option.some.injEq] at hp
    obtain ⟨rfl, rfl⟩ := hp
    exact he
  · intro he
    exact ⟨⟨u, v⟩, he, by simp⟩

/-- Walking over the whole graph tells which nodes are reached. -/
theorem reaches_iff : g.reaches u v = true ↔ Reaches g.arcSet u v := by
  have hstep : WalkStep g.children (List.finRange t.size) = Leads g.arcSet := by
    funext a b
    simp only [WalkStep, mem_children, List.mem_finRange, and_true]
  simp only [reaches, List.contains_eq_mem, decide_eq_true_eq, reachable,
    mem_walk_iff (List.nodup_finRange _), List.mem_singleton, exists_eq_left, List.mem_finRange, true_and,
    hstep, Reaches]

end Graph

/-! ## Names -/

namespace Numbering

variable {t : Numbering} {u v : t.Node} {a : String}

theorem name_injective : Function.Injective t.name := fun _ _ h => Fin.ext ((List.Nodup.getElem_inj_iff t.nodup).1 h)

theorem edge_injective : Function.Injective t.edge := by
  rintro ⟨p, c⟩ ⟨p', c'⟩ h
  simp only [edge, Arc.mk.injEq] at h
  rw [name_injective h.1, name_injective h.2]

theorem name_mem (v : t.Node) : t.name v ∈ t.names := List.getElem_mem v.isLt

theorem node?_eq_some_iff : t.node? a = some v ↔ t.name v = a := by
  rw [node?, List.finIdxOf?_eq_some_iff]
  refine ⟨And.left, fun h => ⟨h, fun j hj hja => ?_⟩⟩
  exact Nat.ne_of_lt hj ((List.Nodup.getElem_inj_iff t.nodup).1 (hja.trans h.symm))

theorem mem_names_iff : a ∈ t.names ↔ ∃ v, t.node? a = some v := by
  simp only [node?_eq_some_iff]
  constructor
  · intro h
    obtain ⟨i, hi, rfl⟩ := List.getElem_of_mem h
    exact ⟨⟨i, hi⟩, rfl⟩
  · intro hx
    obtain ⟨v, rfl⟩ := hx
    exact name_mem v

theorem isSome_node?_iff : (t.node? a).isSome ↔ a ∈ t.names := by
  rw [mem_names_iff, Option.isSome_iff_exists]

theorem arc?_eq_some_iff {e : Edge} {arc : Arc t.Node} : t.arc? e = some arc ↔ t.edge arc = e := by
  obtain ⟨parent, child⟩ := e
  obtain ⟨p, c⟩ := arc
  simp [arc?, Option.bind_eq_some_iff, node?_eq_some_iff, edge]

/-- An edge between names is one between numbers if both names have a number. -/
theorem exists_arc_iff {e : Edge} : (∃ arc, t.edge arc = e) ↔ e.parent ∈ t.names ∧ e.child ∈ t.names := by
  constructor
  · intro hx
    obtain ⟨arc, rfl⟩ := hx
    exact ⟨name_mem _, name_mem _⟩
  · intro hx
    obtain ⟨p, hp⟩ := mem_names_iff.1 hx.1
    obtain ⟨c, hc⟩ := mem_names_iff.1 hx.2
    exact ⟨⟨p, c⟩, by rw [edge, node?_eq_some_iff.1 hp, node?_eq_some_iff.1 hc]⟩

theorem mem_names_add {name : String} : a ∈ (t.add name).names ↔ a ∈ t.names ∨ a = name := by
  unfold add
  split
  · rename_i h
    exact ⟨.inl, fun hx => hx.elim id fun he => he ▸ h⟩
  · simp

/-- All names of a list have a number. -/
theorem mem_names_ofList {l : List String} : a ∈ (ofList l).names ↔ a ∈ l := by
  suffices h : ∀ (t : Numbering), a ∈ (l.foldl add t).names ↔ a ∈ t.names ∨ a ∈ l from by
    simpa [ofList] using h ⟨[], .nil⟩
  intro t
  induction l generalizing t with
  | nil => simp
  | cons name l ih => rw [List.foldl_cons, ih, mem_names_add, List.mem_cons, or_assoc]

end Numbering

namespace Graph

variable {t : Numbering} {g : Graph t} {u v : t.Node} {a b : String}

/-- The edges of a graph by the names of their ends. -/
def edgeSet (g : Graph t) : Set Edge := t.edge '' g.arcSet

theorem edge_mem_edgeSet {e : Arc t.Node} : t.edge e ∈ g.edgeSet ↔ e ∈ g.arcSet :=
  Function.Injective.mem_set_image Numbering.edge_injective

theorem leads_edgeSet_iff : Leads g.edgeSet (t.name u) (t.name v) ↔ Leads g.arcSet u v :=
  edge_mem_edgeSet (e := ⟨u, v⟩)

theorem exists_of_leads (h : Leads g.edgeSet a b) : ∃ u v, t.name u = a ∧ t.name v = b ∧ Leads g.arcSet u v := by
  obtain ⟨⟨u, v⟩, he, heq⟩ := h
  simp only [Numbering.edge, Arc.mk.injEq] at heq
  exact ⟨u, v, heq.1, heq.2, he⟩

/-- What a name leads to by name, its number leads to by number. -/
theorem exists_of_reaches (h : Reaches g.edgeSet (t.name u) b) : ∃ v, t.name v = b ∧ Reaches g.arcSet u v := by
  induction h with
  | refl => exact ⟨u, rfl, .refl _ _⟩
  | tail _ hl ih =>
    obtain ⟨v, hv, hr⟩ := ih
    obtain ⟨v', w, hv', hw, hvw⟩ := exists_of_leads hl
    rw [Numbering.name_injective (hv'.trans hv.symm)] at hvw
    exact ⟨w, hw, hr.tail hvw⟩

theorem reaches_edgeSet_iff : Reaches g.edgeSet (t.name u) (t.name v) ↔ Reaches g.arcSet u v := by
  constructor
  · intro h
    obtain ⟨w, hw, hr⟩ := exists_of_reaches h
    rwa [← Numbering.name_injective hw]
  · exact ReflTransGen.lift t.name (fun _ _ hl => leads_edgeSet_iff.2 hl) u v

end Graph
end SeedData
