/-
The components of a graph: every node has a number, and two nodes have the same exactly if
each can be reached from the other, in whatever order the search comes to the nodes
(`numbers_tell_mutual_reachability`).

The search in the first pass keeps `Searching`. What the sweep needs of it is
`FinishedLate`: of the nodes that reach `v`, each is mutual with one that was not
finished before `v`. So when the sweep comes to a node without a number, the nodes
without one that lead to it are its component and nothing else.
-/
import Mathlib.Data.List.Permutation
import SeedData.Proofs.Reachability

namespace SeedData.Graph

open Relation

variable {t : Numbering} {g : Graph t}

/-! ## The search -/

/-- Whenever a node that was finished earlier reaches `v`, it is mutual with a node
that was not; the list starts with what was finished last. -/
def FinishedLate (g : Graph t) : List t.Node → Prop
  | [] => True
  | v :: earlier =>
    (∀ u ∈ earlier, Reaches g.arcSet u v → ∃ w, w ∉ earlier ∧ Mutual g.arcSet u w) ∧
      FinishedLate g earlier

/-- What holds during a search. -/
structure Searching (g : Graph t) (path : List (t.Node × List t.Node)) (fresh finished : List t.Node) :
    Prop where
  /-- Each node is on the path, finished or fresh. -/
  perm : (path.map (·.1) ++ finished ++ fresh).Perm (List.finRange t.size)
  /-- Of two nodes on the path, the one further down reaches the other. -/
  chain : (path.map (·.1)).Pairwise fun upper lower => Reaches g.arcSet lower upper
  /-- What a node has yet to look at are children of it. -/
  rest : ∀ p ∈ path, ∀ c ∈ p.2, Leads g.arcSet p.1 c
  /-- The other children of a node on the path have been met. -/
  looked : ∀ p ∈ path, ∀ c, Leads g.arcSet p.1 c → c ∈ p.2 ∨ c ∉ fresh
  /-- All children of a finished node have been met. -/
  done : ∀ v ∈ finished, ∀ c, Leads g.arcSet v c → c ∉ fresh
  /-- A finished node that reaches one that is not finished is mutual with one on
  the path. -/
  held : ∀ u ∈ finished, ∀ x ∉ finished, Reaches g.arcSet u x →
    ∃ w ∈ path.map (·.1), Mutual g.arcSet u w
  late : FinishedLate g finished

variable {path : List (t.Node × List t.Node)} {fresh finished rest : List t.Node} {v c : t.Node}

theorem Searching.nodup (h : Searching g path fresh finished) :
    (path.map (·.1) ++ finished ++ fresh).Nodup :=
  h.perm.nodup_iff.2 (List.nodup_finRange _)

/-- A met node is on the path or finished. -/
theorem Searching.met (h : Searching g path fresh finished) {b : t.Node} (hb : b ∉ fresh) :
    b ∈ path.map (·.1) ∨ b ∈ finished := by
  have hn : b ∈ path.map (·.1) ++ finished ++ fresh := h.perm.mem_iff.2 (List.mem_finRange b)
  simp only [List.mem_append] at hn
  exact hn.resolve_right hb

/-- No node on the path is finished. -/
theorem Searching.not_finished (h : Searching g path fresh finished) {w : t.Node}
    (hw : w ∈ path.map (·.1)) : w ∉ finished := fun hf =>
  (List.nodup_append.1 (List.nodup_append.1 h.nodup).1).2.2 w hw w hf rfl

/-- A fresh node put in front of some others. -/
theorem perm_meet (l : List t.Node) (hv : v ∈ fresh) : (v :: (l ++ fresh.erase v)).Perm (l ++ fresh) :=
  List.perm_middle.symm.trans ((List.perm_cons_erase hv).symm.append_left l)

theorem Searching.start (h : Searching g [] fresh finished) (hv : v ∈ fresh) :
    Searching g [(v, g.children v)] (fresh.erase v) finished where
  perm := by
    refine List.Perm.trans ?_ h.perm
    simpa using perm_meet finished hv
  chain := by simp
  rest := by simp [mem_children]
  looked := by simp +contextual [mem_children]
  done u hu c hl hc := h.done u hu c hl (List.mem_of_mem_erase hc)
  held u hu x hx hr := by
    obtain ⟨w, hw, _⟩ := h.held u hu x hx hr
    simp at hw
  late := h.late

/-- Looking at a child that has not been met. -/
theorem Searching.push (h : Searching g ((v, c :: rest) :: path) fresh finished) (hc : c ∈ fresh) :
    Searching g ((c, g.children c) :: (v, rest) :: path) (fresh.erase c) finished where
  perm := by
    refine List.Perm.trans ?_ h.perm
    simpa using perm_meet (v :: (path.map (·.1) ++ finished)) hc
  chain := by
    have hvc : Leads g.arcSet v c := h.rest _ List.mem_cons_self c List.mem_cons_self
    have hchain := h.chain
    simp only [List.map_cons, List.pairwise_cons] at hchain ⊢
    refine ⟨?_, hchain⟩
    intro u hu
    rcases List.mem_cons.1 hu with rfl | hu
    · exact .tail (.refl _ _) hvc
    · exact (hchain.1 u hu).tail hvc
  rest p hp d hd := by
    rcases List.mem_cons.1 hp with rfl | hp
    · exact mem_children.1 hd
    rcases List.mem_cons.1 hp with rfl | hp
    · exact h.rest (v, c :: rest) List.mem_cons_self d (List.mem_cons_of_mem c hd)
    · exact h.rest p (List.mem_cons_of_mem _ hp) d hd
  looked p hp d hl := by
    have hnodup : fresh.Nodup := (List.nodup_append.1 h.nodup).2.1
    rcases List.mem_cons.1 hp with rfl | hp
    · exact .inl (mem_children.2 hl)
    rcases List.mem_cons.1 hp with rfl | hp
    · rcases h.looked (v, c :: rest) List.mem_cons_self d hl with hd | hd
      · rcases List.mem_cons.1 hd with rfl | hd
        · exact .inr hnodup.not_mem_erase
        · exact .inl hd
      · exact .inr fun hd' => hd (List.mem_of_mem_erase hd')
    · exact (h.looked p (List.mem_cons_of_mem _ hp) d hl).imp_right
        fun hd hd' => hd (List.mem_of_mem_erase hd')
  done u hu d hl hd := h.done u hu d hl (List.mem_of_mem_erase hd)
  held u hu x hx hr := by
    obtain ⟨w, hw, hm⟩ := h.held u hu x hx hr
    exact ⟨w, List.mem_cons_of_mem _ hw, hm⟩
  late := h.late

/-- Looking at a child that has been met. -/
theorem Searching.skip (h : Searching g ((v, c :: rest) :: path) fresh finished) (hc : c ∉ fresh) :
    Searching g ((v, rest) :: path) fresh finished where
  perm := h.perm
  chain := h.chain
  rest p hp d hd := by
    rcases List.mem_cons.1 hp with rfl | hp
    · exact h.rest (v, c :: rest) List.mem_cons_self d (List.mem_cons_of_mem c hd)
    · exact h.rest p (List.mem_cons_of_mem _ hp) d hd
  looked p hp d hl := by
    rcases List.mem_cons.1 hp with rfl | hp
    · rcases h.looked (v, c :: rest) List.mem_cons_self d hl with hd | hd
      · rcases List.mem_cons.1 hd with rfl | hd
        · exact .inr hc
        · exact .inl hd
      · exact .inr hd
    · exact h.looked p (List.mem_cons_of_mem _ hp) d hl
  done := h.done
  held := h.held
  late := h.late

/-- When a node is finished that reaches an unfinished one, it is mutual with a node
below it on the path: the way there leaves the finished nodes on the path. -/
theorem Searching.held_top (h : Searching g ((v, []) :: path) fresh finished)
    {x : t.Node} (hx : x ∉ v :: finished) (hr : Reaches g.arcSet v x) :
    ∃ w ∈ path.map (·.1), Mutual g.arcSet v w := by
  have hbelow : ∀ w ∈ path.map (·.1), Reaches g.arcSet w v := (List.pairwise_cons.1 h.chain).1
  suffices key : ∀ y, Reaches g.arcSet y x → y ∈ v :: finished → Reaches g.arcSet v y →
      ∃ w ∈ path.map (·.1), Mutual g.arcSet v w from key v hr List.mem_cons_self (.refl _ _)
  intro y hyx
  induction hyx using ReflTransGen.head_induction_on with
  | refl => exact fun hy => absurd hy hx
  | @head y z hyz _ ih =>
    intro hy hvy
    have hfresh : z ∉ fresh := by
      rcases List.mem_cons.1 hy with rfl | hy
      · exact (h.looked _ List.mem_cons_self z hyz).resolve_left (by simp)
      · exact h.done y hy z hyz
    rcases h.met hfresh with hz | hz
    · rcases List.mem_cons.1 hz with rfl | hz
      · exact ih List.mem_cons_self (.refl _ _)
      · exact ⟨z, hz, hvy.tail hyz, hbelow z hz⟩
    · exact ih (List.mem_cons_of_mem v hz) (hvy.tail hyz)

/-- Finishing a node. -/
theorem Searching.finish (h : Searching g ((v, []) :: path) fresh finished) :
    Searching g path fresh (v :: finished) where
  perm := by
    refine List.Perm.trans ?_ h.perm
    simp [List.perm_middle]
  chain := (List.pairwise_cons.1 h.chain).2
  rest p hp := h.rest p (List.mem_cons_of_mem _ hp)
  looked p hp := h.looked p (List.mem_cons_of_mem _ hp)
  done u hu c hl := by
    rcases List.mem_cons.1 hu with rfl | hu
    · exact (h.looked _ List.mem_cons_self c hl).resolve_left (by simp)
    · exact h.done u hu c hl
  held u hu x hx hr := by
    rcases List.mem_cons.1 hu with rfl | hu
    · exact h.held_top hx hr
    obtain ⟨w, hw, hm⟩ := h.held u hu x (fun hx' => hx (List.mem_cons_of_mem v hx')) hr
    rcases List.mem_cons.1 hw with rfl | hw
    · obtain ⟨w', hw', hm'⟩ := h.held_top hx (hm.2.trans hr)
      exact ⟨w', hw', hm.trans hm'⟩
    · exact ⟨w, hw, hm⟩
  late := by
    refine ⟨fun u hu hr => ?_, h.late⟩
    obtain ⟨w, hw, hm⟩ := h.held u hu v (h.not_finished (by simp)) hr
    exact ⟨w, h.not_finished hw, hm⟩

/-- A search keeps what holds during it, and ends with an empty path. -/
theorem Searching.search (h : Searching g path fresh finished) :
    Searching g [] (g.search path fresh finished).1 (g.search path fresh finished).2 := by
  induction path, fresh, finished using Graph.search.induct g with
  | case1 fresh finished => simpa [Graph.search] using h
  | case2 fresh finished v path ih =>
    rw [Graph.search]
    exact ih h.finish
  | case3 fresh finished v c rest path hc ih =>
    rw [Graph.search, if_pos hc]
    exact ih (h.push hc)
  | case4 fresh finished v c rest path hc ih =>
    rw [Graph.search, if_neg hc]
    exact ih (h.skip hc)

/-- A search makes no node fresh. -/
theorem search_fresh_subset : (g.search path fresh finished).1 ⊆ fresh := by
  induction path, fresh, finished using Graph.search.induct g with
  | case1 fresh finished => simp [Graph.search]
  | case2 fresh finished v path ih => rwa [Graph.search]
  | case3 fresh finished v c rest path hc ih =>
    rw [Graph.search, if_pos hc]
    exact fun x hx => List.mem_of_mem_erase (ih hx)
  | case4 fresh finished v c rest path hc ih => rwa [Graph.search, if_neg hc]

/-- Searches from the nodes of a list finish all nodes, if the others were met
before. -/
theorem searchAll_searching {vs : List t.Node} (h : Searching g [] fresh finished)
    (hf : ∀ v ∈ fresh, v ∈ vs) : Searching g [] [] (g.searchAll fresh finished vs) := by
  induction vs generalizing fresh finished with
  | nil =>
    rw [List.eq_nil_iff_forall_not_mem.2 fun v hv => List.not_mem_nil (hf v hv)] at h
    exact h
  | cons v vs ih =>
    rw [searchAll]
    split
    · rename_i hv
      refine ih (h.start hv).search fun u hu => ?_
      have hu' := search_fresh_subset hu
      have hne : u ≠ v := fun he => (List.nodup_append.1 h.nodup).2.1.not_mem_erase (he ▸ hu')
      exact (List.mem_cons.1 (hf u (List.mem_of_mem_erase hu'))).resolve_left hne
    · rename_i hv
      exact ih h fun u hu => (List.mem_cons.1 (hf u hu)).resolve_left fun he => hv (he ▸ hu)

/-- Searches that start from all nodes, in any order, finish all nodes. -/
theorem searching_searchAll {order : List t.Node} (horder : ∀ v, v ∈ order) :
    Searching g [] [] (g.searchAll (List.finRange t.size) [] order) := by
  refine searchAll_searching ?_ fun v _ => horder v
  constructor <;> simp [FinishedLate]

/-! ## The sweep -/

/-- What holds during a sweep: numbers below `next`, and the same number for a node
and for exactly the nodes that are mutual with it. -/
structure Numbered (g : Graph t) (next : Nat) (ids : SortedMap t.Node Nat) : Prop where
  lt : ∀ {a i}, ids.get? a = some i → i < next
  iff : ∀ {a i b}, ids.get? a = some i → (ids.get? b = some i ↔ Mutual g.arcSet a b)

variable {ids : SortedMap t.Node Nat} {next : Nat} {vs : List t.Node} {u : t.Node}

theorem mem_unnumberedTo : u ∈ g.unnumberedTo ids v ↔
    ids.get? v = none ∧ ReflTransGen (fun a b => Leads g.arcSet b a ∧ ids.get? b = none) v u := by
  have hfresh : ∀ b, b ∈ (List.finRange t.size).filter (fun v => !ids.contains v) ↔ ids.get? b = none := by
    simp [SortedMap.contains]
  have hstep : WalkStep g.parents ((List.finRange t.size).filter fun v => !ids.contains v) =
      fun a b => Leads g.arcSet b a ∧ ids.get? b = none := by
    funext a b
    simp only [WalkStep, mem_parents, hfresh]
  rw [unnumberedTo, mem_walk_iff ((List.nodup_finRange _).filter _), hstep]
  simp only [List.mem_singleton, exists_eq_left, hfresh]

/-- The nodes without a number that lead to one through such nodes are its component,
if the nodes finished after it have numbers. -/
theorem mem_unnumberedTo_iff (h : Numbered g next ids) (hlate : FinishedLate g (v :: vs))
    (hv : ids.get? v = none) (hvs : ∀ u, ids.get? u = none → u ∈ v :: vs) :
    u ∈ g.unnumberedTo ids v ↔ Mutual g.arcSet u v := by
  have hmutual : ∀ {a b}, Mutual g.arcSet a b → ids.get? a = none → ids.get? b = none := by
    intro a b hab ha
    cases hb : ids.get? b with
    | none => rfl
    | some i =>
      have hai := (h.iff hb).2 hab.symm
      rw [ha] at hai
      exact absurd hai (by simp)
  rw [mem_unnumberedTo]
  constructor
  · intro hx
    obtain ⟨-, hu⟩ := hx
    have huv : Reaches g.arcSet u v ∧ ids.get? u = none := by
      induction hu with
      | refl => exact ⟨.refl _ _, hv⟩
      | tail _ hs ih => exact ⟨.head hs.1 ih.1, hs.2⟩
    rcases List.mem_cons.1 (hvs u huv.2) with rfl | hu
    · exact .refl _ _
    -- A node mutual with `u` that is not among `vs` can only be `v`.
    obtain ⟨w, hnot, hm⟩ := hlate.1 u hu huv.1
    rcases List.mem_cons.1 (hvs w (hmutual hm huv.2)) with rfl | hw
    · exact hm
    · exact absurd hw hnot
  · intro hm
    refine ⟨hv, ?_⟩
    suffices key : ∀ x, Reaches g.arcSet x v → Reaches g.arcSet v x →
        ReflTransGen (fun a b => Leads g.arcSet b a ∧ ids.get? b = none) v x from key u hm.1 hm.2
    intro x hx
    induction hx using ReflTransGen.head_induction_on with
    | refl => exact fun _ => .refl
    | @head x y hxy hyv ih =>
      intro hvx
      have hxv : Mutual g.arcSet v x := ⟨hvx, .head hxy hyv⟩
      exact (ih (hvx.tail hxy)).tail ⟨hxy, hmutual hxv hv⟩

/-- A component gets the next number. -/
theorem Numbered.add (h : Numbered g next ids) {met : List t.Node}
    (hmet : ∀ u, u ∈ met ↔ Mutual g.arcSet u v) :
    Numbered g (next + 1) (met.foldl (fun ids u => ids.insert u next) ids) := by
  constructor
  · intro a i ha
    rw [SortedMap.get?_foldl_insert] at ha
    split at ha
    · simp only [Option.some.injEq] at ha
      omega
    · exact Nat.lt_succ_of_lt (h.lt ha)
  · intro a i b ha
    rw [SortedMap.get?_foldl_insert] at ha ⊢
    split at ha
    · rename_i hm
      simp only [Option.some.injEq] at ha
      subst ha
      have hav := (hmet a).1 hm
      split
      · rename_i hb
        exact iff_of_true rfl (hav.trans ((hmet b).1 hb).symm)
      · rename_i hb
        refine iff_of_false (fun hbn => Nat.lt_irrefl _ (h.lt hbn)) fun hab => hb ?_
        exact (hmet b).2 (hab.symm.trans hav)
    · split
      · rename_i hna hb
        refine iff_of_false (fun hi => ?_) fun hab => hna ?_
        · simp only [Option.some.injEq] at hi
          exact Nat.lt_irrefl _ (hi ▸ h.lt ha)
        · exact (hmet a).2 (hab.trans ((hmet b).1 hb))
      · exact h.iff ha

/-- A sweep numbers all nodes of a list, and keeps what holds during it. -/
theorem sweep_numbered (h : Numbered g next ids) (hlate : FinishedLate g vs)
    (hvs : ∀ u, ids.get? u = none → u ∈ vs) :
    (∃ last, Numbered g last (g.sweep next ids vs)) ∧ ∀ u, ((g.sweep next ids vs).get? u).isSome := by
  induction vs generalizing next ids with
  | nil =>
    refine ⟨⟨next, h⟩, fun u => ?_⟩
    cases hi : ids.get? u with
    | none => exact absurd (hvs u hi) List.not_mem_nil
    | some i => simp [sweep, hi]
  | cons v vs ih =>
    rw [sweep]
    split
    · rename_i hv
      refine ih h hlate.2 fun u hi => ?_
      refine (List.mem_cons.1 (hvs u hi)).resolve_left ?_
      intro heq
      subst heq
      simp [SortedMap.contains, hi] at hv
    · rename_i hv
      have hv : ids.get? v = none := by simpa [SortedMap.contains] using hv
      have hmet := fun u => mem_unnumberedTo_iff h hlate hv hvs (u := u)
      refine ih (h.add hmet) hlate.2 fun u hi => ?_
      rw [SortedMap.get?_foldl_insert] at hi
      split at hi
      · exact absurd hi (by simp)
      · rename_i hu'
        refine (List.mem_cons.1 (hvs u hi)).resolve_left ?_
        intro heq
        subst heq
        exact hu' ((hmet u).2 (.refl _ _))

/-- The numbers of the components when the search starts from the nodes in the order of a list. -/
def componentsBy (g : Graph t) (order : List t.Node) : SortedMap t.Node Nat :=
  g.sweep 0 SortedMap.empty (g.searchAll (List.finRange t.size) [] order)

/-- The numbers tell components apart: all nodes have one, and two nodes have the same exactly
if each can be reached from the other. -/
structure TellsComponents (g : Graph t) (ids : SortedMap t.Node Nat) : Prop where
  isSome : ∀ v, (ids.get? v).isSome
  eq_iff : ∀ a b, ids.get? a = ids.get? b ↔ Mutual g.arcSet a b

theorem tellsComponents_componentsBy (g : Graph t) {order : List t.Node} (horder : ∀ v, v ∈ order) :
    g.TellsComponents (g.componentsBy order) := by
  have hs := searching_searchAll (g := g) horder
  have hperm : (g.searchAll (List.finRange t.size) [] order).Perm (List.finRange t.size) := by
    simpa using hs.perm
  have hnone : Numbered g 0 (SortedMap.empty : SortedMap t.Node Nat) := by constructor <;> simp
  obtain ⟨⟨last, h⟩, hall⟩ :=
    sweep_numbered hnone hs.late fun u _ => hperm.mem_iff.2 (List.mem_finRange u)
  refine ⟨hall, fun a b => ?_⟩
  obtain ⟨i, hi⟩ := Option.isSome_iff_exists.1 (hall a)
  rw [componentsBy, hi, eq_comm, h.iff hi]

/-- Nodes have the same number exactly if each can be reached from the other. -/
theorem components_eq_iff {a b : t.Node} : g.components.get? a = g.components.get? b ↔ Mutual g.arcSet a b :=
  (tellsComponents_componentsBy g List.mem_finRange).eq_iff a b

/-- **The numbers of components tell which nodes reach each other**, in whatever order the search comes to
the nodes. -/
theorem numbers_tell_mutual_reachability (g : Graph t) : g.TellsComponents g.components ∧
    ∀ order, (∀ v, v ∈ order) → g.TellsComponents (g.componentsBy order) :=
  ⟨tellsComponents_componentsBy g List.mem_finRange, fun _ horder => tellsComponents_componentsBy g horder⟩

/-- Five tables. -/
def fiveTables : Numbering := ⟨["a", "b", "c", "d", "e"], by decide⟩

/-- Two tables that refer to each other, two more, a reference from one pair to the other, and a table that
refers to itself. -/
def twoPairs : Graph fiveTables :=
  ([⟨0, 1⟩, ⟨1, 0⟩, ⟨1, 2⟩, ⟨2, 3⟩, ⟨3, 2⟩, ⟨4, 4⟩] : List (Arc (Fin 5))).foldl addEdge (empty fiveTables)

/-- The pairs are components of their own, also when the search starts at the end. -/
theorem pairs_are_components : Mutual twoPairs.arcSet (0 : Fin 5) (1 : Fin 5) ∧
    ¬ Mutual twoPairs.arcSet (1 : Fin 5) (2 : Fin 5) ∧
      (twoPairs.componentsBy ([4, 3, 2, 1, 0] : List (Fin 5))).get? (2 : Fin 5) =
        (twoPairs.componentsBy ([4, 3, 2, 1, 0] : List (Fin 5))).get? (3 : Fin 5) := by
  obtain ⟨ha, hb, hc, hd⟩ : twoPairs.components.get? (0 : Fin 5) = some 1 ∧
      twoPairs.components.get? (1 : Fin 5) = some 1 ∧ twoPairs.components.get? (2 : Fin 5) = some 2 ∧
        twoPairs.components.get? (3 : Fin 5) = some 2 := by cbv
  obtain ⟨htold, htoldBy⟩ := numbers_tell_mutual_reachability twoPairs
  have hback := htoldBy ([4, 3, 2, 1, 0] : List (Fin 5)) (by decide : ∀ v : Fin 5, v ∈ _)
  refine ⟨(htold.eq_iff _ _).1 (ha.trans hb.symm), fun h => ?_, ?_⟩
  · have hbc := (htold.eq_iff _ _).2 h
    rw [hb, hc] at hbc
    exact absurd hbc (by decide)
  · exact (hback.eq_iff _ _).2 ((htold.eq_iff _ _).1 (hc.trans hd.symm))

end SeedData.Graph
