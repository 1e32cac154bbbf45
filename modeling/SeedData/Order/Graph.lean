/-
Graphs of tables. The tables are numbered in the order in which they are declared
(`Numbering`), and an edge leads from the number of a parent to the number of a child
that refers to it.

Edges on cycles are found by the components of the graph: a search from every node, and
a sweep against the edges in the opposite order of finishing. Nodes are put in order by
counting, for each, the parents that have no place yet. Everything is found by number;
names decide only which of several edges is given up first, and which of several tables
comes next.
-/
import SeedData.SortedMap

namespace SeedData

/-! ## Edges -/

/-- A parent and a child that refers to it. -/
structure Arc (ν : Type) where
  parent : ν
  child : ν
  deriving DecidableEq, Repr, Inhabited

/-- An edge between tables by their names. -/
abbrev Edge := Arc String

namespace Arc

/-- Edges between names: by child, then by parent. -/
instance : LT Edge := ⟨fun a b => PairLT (a.child, a.parent) (b.child, b.parent)⟩

instance : DecidableLT Edge := fun a b =>
  inferInstanceAs (Decidable (PairLT (a.child, a.parent) (b.child, b.parent)))

instance : KeyOrder Edge where
  lt_irrefl _ := PairLT.irrefl _
  lt_trans := PairLT.trans
  lt_trichotomy a b := by
    rcases PairLT.trichotomy (a.child, a.parent) (b.child, b.parent) with h | h | h
    · exact .inl h
    · exact .inr (.inl (by cases a; cases b; simp_all))
    · exact .inr (.inr h)

variable {n : Nat}

/-- Edges between numbers: by parent, then by child. -/
instance : LT (Arc (Fin n)) := ⟨fun a b => PairLT (a.parent, a.child) (b.parent, b.child)⟩

instance : DecidableLT (Arc (Fin n)) := fun a b =>
  inferInstanceAs (Decidable (PairLT (a.parent, a.child) (b.parent, b.child)))

instance : KeyOrder (Arc (Fin n)) where
  lt_irrefl _ := PairLT.irrefl _
  lt_trans := PairLT.trans
  lt_trichotomy a b := by
    rcases PairLT.trichotomy (a.parent, a.child) (b.parent, b.child) with h | h | h
    · exact .inl h
    · exact .inr (.inl (by cases a; cases b; simp_all))
    · exact .inr (.inr h)

end Arc

/-! ## Names and numbers -/

/-- Different names, each numbered by its place. -/
structure Numbering where
  names : List String
  nodup : names.Nodup

namespace Numbering

abbrev size (t : Numbering) : Nat := t.names.length

/-- The number of a name. -/
abbrev Node (t : Numbering) : Type := Fin t.size

def name (t : Numbering) (v : t.Node) : String := t.names[v]

/-- The number of the name, if it has one. -/
def node? (t : Numbering) (name : String) : Option t.Node := t.names.finIdxOf? name

/-- The edge between the numbers of two names, if both have one. -/
def arc? (t : Numbering) (e : Edge) : Option (Arc t.Node) := do
  return ⟨← t.node? e.parent, ← t.node? e.child⟩

/-- The edge between the names of two numbers. -/
def edge (t : Numbering) (e : Arc t.Node) : Edge := ⟨t.name e.parent, t.name e.child⟩

theorem nodup_add {t : Numbering} {name : String} (h : name ∉ t.names) : (t.names ++ [name]).Nodup := by
  refine List.nodup_append.2 ⟨t.nodup, by simp, fun a ha b hb => ?_⟩
  rw [List.mem_singleton] at hb
  exact fun he => h (hb ▸ he ▸ ha)

/-- One more name, with the next number unless it has one. -/
def add (t : Numbering) (name : String) : Numbering :=
  if h : name ∈ t.names then t else ⟨t.names ++ [name], nodup_add h⟩

/-- The different names of a list, in the order in which they first stand there. -/
def ofList (names : List String) : Numbering := names.foldl add ⟨[], .nil⟩

end Numbering

/-! ## The first by a key -/

/-- The member whose key is first, the earlier of two with one key. -/
def firstBy? {α κ : Type} [LT κ] [DecidableLT κ] (key : α → κ) : List α → Option α
  | [] => none
  | a :: rest =>
    match firstBy? key rest with
    | none => some a
    | some b => if key b < key a then some b else some a

theorem mem_of_firstBy? {α κ : Type} [LT κ] [DecidableLT κ] {key : α → κ} {l : List α} {a : α}
    (h : firstBy? key l = some a) : a ∈ l := by
  induction l with
  | nil => simp [firstBy?] at h
  | cons b rest ih =>
    simp only [firstBy?] at h
    split at h
    · simp_all
    · rename_i c hc
      split at h
      · simp only [Option.some.injEq] at h
        exact List.mem_cons_of_mem b (ih (h ▸ hc))
      · simp_all

/-! ## Graphs -/

/-- The edges between numbered tables. -/
structure Graph (t : Numbering) where
  edges : SortedSet (Arc t.Node)

namespace Graph

variable {t : Numbering}

def empty (t : Numbering) : Graph t := ⟨SortedMap.empty⟩

/-- Whether the edge is one of the graph. -/
def hasEdge (g : Graph t) (e : Arc t.Node) : Bool := g.edges.contains e

def addEdge (g : Graph t) (e : Arc t.Node) : Graph t := ⟨g.edges.add e⟩

def removeEdge (g : Graph t) (e : Arc t.Node) : Graph t := ⟨g.edges.erase e⟩

/-- The nodes that an edge leads to from the given one. -/
def children (g : Graph t) (v : t.Node) : List t.Node :=
  (g.edges.toList).filterMap fun e => if e.parent = v then some e.child else none

/-- The nodes that an edge leads from to the given one. -/
def parents (g : Graph t) (v : t.Node) : List t.Node :=
  (g.edges.toList).filterMap fun e => if e.child = v then some e.parent else none

/-! ## Reachability -/

/-- The nodes among `fresh` that can be walked to from `todo` by `next`, each once.
A node leaves `fresh` when it is met. -/
def walk {ν : Type} [DecidableEq ν] (next : ν → List ν) (fresh todo : List ν) : List ν :=
  match todo with
  | [] => []
  | v :: rest =>
    if v ∈ fresh then v :: walk next (fresh.erase v) (next v ++ rest)
    else walk next fresh rest
termination_by (fresh.length, todo.length)
decreasing_by
  · rename_i h
    rw [Prod.lex_def]
    left
    simp only [List.length_erase_of_mem h]
    have := List.length_pos_of_mem h
    omega
  · rw [Prod.lex_def]
    right
    exact ⟨rfl, by simp⟩

/-- The nodes that can be walked to from the given one, itself included. -/
def reachable (g : Graph t) (v : t.Node) : List t.Node := walk g.children (List.finRange t.size) [v]

/-- Whether the second node can be walked to from the first. -/
def reaches (g : Graph t) (a b : t.Node) : Bool := (g.reachable a).contains b

/-! ## Components -/

/-- A search by depth. `path` holds the nodes on the way to the one that is looked
at, the last first, each with the children that have not been looked at; a node
leaves `fresh` when it is met, and goes in front of `finished` when all its
children have been looked at. -/
def search (g : Graph t) (path : List (t.Node × List t.Node)) (fresh finished : List t.Node) :
    List t.Node × List t.Node :=
  match path with
  | [] => (fresh, finished)
  | (v, []) :: path => g.search path fresh (v :: finished)
  | (v, c :: rest) :: path =>
    if c ∈ fresh then g.search ((c, g.children c) :: (v, rest) :: path) (fresh.erase c) finished
    else g.search ((v, rest) :: path) fresh finished
termination_by (fresh.length, (path.flatMap fun p => p.1 :: p.2).length)
decreasing_by
  · rw [Prod.lex_def]
    right
    exact ⟨rfl, by simp⟩
  · rename_i h
    rw [Prod.lex_def]
    left
    simp only [List.length_erase_of_mem h]
    have := List.length_pos_of_mem h
    omega
  · rw [Prod.lex_def]
    right
    exact ⟨rfl, by simp⟩

/-- Searches from each node of a list that has not been met before. -/
def searchAll (g : Graph t) (fresh finished : List t.Node) : List t.Node → List t.Node
  | [] => finished
  | v :: rest =>
    if v ∈ fresh then
      let (fresh, finished) := g.search [(v, g.children v)] (fresh.erase v) finished
      g.searchAll fresh finished rest
    else g.searchAll fresh finished rest

/-- The nodes, those that a search of the whole graph finishes last first. -/
def finishOrder (g : Graph t) : List t.Node :=
  g.searchAll (List.finRange t.size) [] (List.finRange t.size)

/-- The nodes without a component that lead to the given one through such nodes. -/
def unnumberedTo (g : Graph t) (ids : SortedMap t.Node Nat) (v : t.Node) : List t.Node :=
  walk g.parents ((List.finRange t.size).filter fun v => !ids.contains v) [v]

/-- Gives each node of a list that has no component yet the next one, and the same
one to all nodes without one that lead to it. -/
def sweep (g : Graph t) (next : Nat) (ids : SortedMap t.Node Nat) : List t.Node → SortedMap t.Node Nat
  | [] => ids
  | v :: rest =>
    if ids.contains v then g.sweep next ids rest
    else
      let met := g.unnumberedTo ids v
      g.sweep (next + 1) (met.foldl (fun ids u => ids.insert u next) ids) rest

/-- The component of each node, as a number. -/
def components (g : Graph t) : SortedMap t.Node Nat := g.sweep 0 SortedMap.empty g.finishOrder

/-- Of the edges whose ends share a component, the first by the names of child and parent. -/
def cycleEdge? (g : Graph t) : Option (Arc t.Node) :=
  let ids := g.components
  firstBy? t.edge ((g.edges.toList).filter fun e => ids.get? e.parent == ids.get? e.child)

theorem mem_of_cycleEdge? {g : Graph t} {e : Arc t.Node} (h : g.cycleEdge? = some e) : e ∈ g.edges.toList :=
  (List.mem_filter.1 (mem_of_firstBy? h)).1

end Graph

/-! ## Order -/

/-- A node and its name. -/
structure Numbering.Entry (t : Numbering) where
  name : String
  node : t.Node
  deriving DecidableEq

namespace Numbering.Entry

variable {t : Numbering}

/-- By name, then by number. -/
instance : LT t.Entry := ⟨fun a b => PairLT (a.name, a.node) (b.name, b.node)⟩

instance : DecidableLT t.Entry := fun a b =>
  inferInstanceAs (Decidable (PairLT (a.name, a.node) (b.name, b.node)))

instance : KeyOrder t.Entry where
  lt_irrefl _ := PairLT.irrefl _
  lt_trans := PairLT.trans
  lt_trichotomy a b := by
    rcases PairLT.trichotomy (a.name, a.node) (b.name, b.node) with h | h | h
    · exact .inl h
    · exact .inr (.inl (by cases a; cases b; simp_all))
    · exact .inr (.inr h)

end Numbering.Entry

/-- The entry of a node. -/
def Numbering.entry (t : Numbering) (v : t.Node) : t.Entry := ⟨t.name v, v⟩

/-- The nodes that can be next, and the number of parents without a place of each
node that has such parents. -/
structure Queue (t : Numbering) where
  ready : SortedSet t.Entry
  waiting : SortedMap t.Node Nat

namespace Queue

variable {t : Numbering}

def size (q : Queue t) : Nat := q.ready.size + q.waiting.size

/-- The queue when one more parent of a node has its place. -/
def countDown (q : Queue t) (v : t.Node) : Queue t :=
  match q.waiting.get? v with
  | none => q
  | some n =>
    if n ≤ 1 then ⟨SortedSet.add q.ready (t.entry v), q.waiting.erase v⟩
    else { q with waiting := q.waiting.insert v (n - 1) }

theorem size_countDown_le (q : Queue t) (v : t.Node) : (q.countDown v).size ≤ q.size := by
  unfold countDown
  split
  · exact Nat.le_refl _
  · rename_i n hn
    have hc : q.waiting.contains v = true := by simp [SortedMap.contains, hn]
    split
    · have hready := SortedMap.size_insert_le q.ready (t.entry v) ()
      have hwaiting := SortedMap.size_erase_lt hc
      simp only [size, SortedSet.add]
      omega
    · simp [size, SortedMap.size_insert_of_contains _ hc]

theorem size_foldl_countDown_le (q : Queue t) (vs : List t.Node) : (vs.foldl countDown q).size ≤ q.size := by
  induction vs generalizing q with
  | nil => exact Nat.le_refl _
  | cons v vs ih => exact Nat.le_trans (ih _) (size_countDown_le q v)

end Queue

namespace Graph

variable {t : Numbering}

/-- The queue when no node has a place. -/
def queue (g : Graph t) : Queue t where
  ready := SortedSet.ofList (((List.finRange t.size).filter fun v => (g.parents v).isEmpty).map t.entry)
  waiting := SortedMap.ofList (((List.finRange t.size).filter fun v => !(g.parents v).isEmpty).map
    fun v => (v, (g.parents v).length))

/-- The names of a queue's nodes one after another, next always the first of those that can
be; ends when none can. -/
def arrange (g : Graph t) (q : Queue t) : List String :=
  match (SortedSet.popFirst? q.ready).attach with
  | none => []
  | some ⟨(first, ready), _⟩ =>
    first.name :: g.arrange ((g.children first.node).foldl Queue.countDown { q with ready := ready })
termination_by q.size
decreasing_by
  rename_i h
  have hle := Queue.size_foldl_countDown_le { q with ready := ready } (g.children first.node)
  have hpop := congrArg List.length (SortedSet.toList_of_popFirst? h)
  simp only [SortedSet.length_toList, List.length_cons] at hpop
  simp only [Queue.size] at hle ⊢
  omega

/-- The names of the nodes, parents before children, the first by name whenever more than one
can be next. -/
def sort (g : Graph t) : List String := g.arrange g.queue

end Graph
end SeedData
