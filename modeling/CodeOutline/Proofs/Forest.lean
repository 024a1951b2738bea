import Mathlib.Data.List.Nodup
import CodeOutline.Line.Classifier
import CodeOutline.Outline

/-!
# Proofs.Forest — the nodes of a forest in pre-order, and where each of them lies

`Forest.nodes` is the listing without its depths. `Forest.lineage` pairs each node with the nodes it lies
in, outermost first, so that the last of them is its parent and a root has none. Both may be asked through
a view `f` of the nodes: `Node.entry` is a node without what it holds, the line and what was found there.
Two forests with the same entries at the same places are built alike, whatever their nodes hold yet.

A forest whose lines increase in pre-order has its children after their parents and its siblings in
order (`Ordered.children`), and its nodes are told apart by their lines (`Ordered.eq_of_line_eq`).
-/

namespace CodeOutline

set_option autoImplicit false

open CodeOutline.Line

/-- A node without the declarations it holds: its line, and what was found there. -/
def Node.entry (n : Node) : Nat × Declaration := (n.line, ⟨n.kind, n.name, n.column⟩)

@[simp] theorem Node.entry_push (n child : Node) : (n.push child).entry = n.entry := rfl

mutual

def Node.lineage {α : Type} (f : Node → α) (above : List α) : Node → List (List α × α)
  | ⟨k, n, l, c, cs⟩ =>
      (above, f ⟨k, n, l, c, cs⟩) :: Forest.lineage f (above ++ [f ⟨k, n, l, c, cs⟩]) cs

/-- The nodes of a forest in pre-order, each after the list of those it lies in, outermost first. -/
def Forest.lineage {α : Type} (f : Node → α) (above : List α) : List Node → List (List α × α)
  | [] => []
  | n :: ns => n.lineage f above ++ Forest.lineage f above ns

end

namespace Forest

def nodes (ns : List Node) : List Node := (listing 0 ns).map (·.2)

def entries (ns : List Node) : List (Nat × Declaration) := (nodes ns).map Node.entry

end Forest

section Listing

variable {α β : Type} (f : Node → α)

theorem Node.lineage_eq (above : List α) (n : Node) :
    n.lineage f above = (above, f n) :: Forest.lineage f (above ++ [f n]) n.children := by
  cases n; rfl

namespace Forest

theorem map_snd_listing (d : Nat) (ns : List Node) : (listing d ns).map (·.2) = nodes ns := by
  unfold nodes
  induction ns using Forest.induct generalizing d with
  | nil => rfl
  | cons n ns below after =>
      simp only [listing, Node.listing_eq, List.map_append, List.map_cons, List.cons_append]
      rw [below (d + 1), below 1, after d]

@[simp] theorem nodes_nil : nodes [] = [] := rfl

theorem nodes_cons (n : Node) (ns : List Node) :
    nodes (n :: ns) = n :: (nodes n.children ++ nodes ns) := by
  rw [nodes, listing, List.map_append, Node.listing_eq, List.map_cons, map_snd_listing,
    map_snd_listing, List.cons_append]

theorem length_nodes (ns : List Node) : (nodes ns).length = size ns := by
  rw [nodes, List.length_map, length_listing]

theorem lineage_append (above : List α) (ns ms : List Node) :
    lineage f above (ns ++ ms) = lineage f above ns ++ lineage f above ms := by
  induction ns with
  | nil => rfl
  | cons n ns ih => simp only [List.cons_append, lineage, ih, List.append_assoc]

/-- The second halves of a lineage are the nodes themselves. -/
theorem map_snd_lineage (above : List α) (ns : List Node) :
    (lineage f above ns).map (·.2) = (nodes ns).map f := by
  induction ns using Forest.induct generalizing above with
  | nil => rfl
  | cons n ns below after =>
      simp only [lineage, Node.lineage_eq, nodes_cons, List.map_cons, List.map_append,
        List.cons_append]
      rw [below, after]

/-- A coarser view of a lineage is the lineage of the coarser view. -/
theorem map_lineage (g : α → β) (above : List α) (ns : List Node) :
    (lineage f above ns).map (Prod.map (List.map g) g) = lineage (g ∘ f) (above.map g) ns := by
  induction ns using Forest.induct generalizing above with
  | nil => rfl
  | cons n ns below after =>
      simp only [lineage, Node.lineage_eq, List.map_append, List.map_cons]
      rw [below, after]
      simp

/-- The entries with their paths are the nodes with theirs, seen without what they hold. -/
theorem lineage_entry_eq (ns : List Node) :
    lineage Node.entry [] ns = (lineage id [] ns).map (Prod.map (List.map Node.entry) Node.entry) := by
  rw [map_lineage]
  rfl

theorem mem_nodes_of_mem_lineage {above : List Node} {n : Node} {ns : List Node}
    (placed : (above, n) ∈ lineage id [] ns) : n ∈ nodes ns := by
  have listed := List.mem_map_of_mem (f := Prod.snd) placed
  rwa [map_snd_lineage, List.map_id] at listed

theorem mem_entries_of_mem_lineage {above : List (Nat × Declaration)} {e : Nat × Declaration} {ns : List Node}
    (placed : (above, e) ∈ lineage Node.entry [] ns) : e ∈ entries ns := by
  rw [entries, ← map_snd_lineage Node.entry []]
  exact List.mem_map_of_mem placed

/-- The nodes that a node lies in are nodes of the forest, after those above the whole of it. -/
theorem above_of_mem_lineage {above as : List α} {x : α} {ns : List Node}
    (member : (as, x) ∈ lineage f above ns) :
    ∃ inner, as = above ++ inner ∧ ∀ a ∈ inner, a ∈ (nodes ns).map f := by
  induction ns using Forest.induct generalizing above with
  | nil => simp [lineage] at member
  | cons n ns below after =>
      simp only [lineage, Node.lineage_eq, List.cons_append, List.mem_cons, List.mem_append] at member
      simp only [nodes_cons, List.map_cons, List.map_append, List.mem_cons, List.mem_append]
      rcases member with root | inside | later
      · obtain ⟨rfl, -⟩ := Prod.mk.inj root
        exact ⟨[], by simp⟩
      · obtain ⟨inner, rfl, known⟩ := below inside
        refine ⟨f n :: inner, by simp, ?_⟩
        intro a mem
        rcases List.mem_cons.1 mem with rfl | mem
        · exact .inl rfl
        · exact .inr (.inl (known a mem))
      · obtain ⟨inner, rfl, known⟩ := after later
        exact ⟨inner, rfl, fun a mem => .inr (.inr (known a mem))⟩

/-- Every node has its place. -/
theorem exists_mem_lineage {n : Node} {ns : List Node} (member : n ∈ nodes ns) :
    ∃ above, (above, n) ∈ lineage id [] ns := by
  have listed : n ∈ (lineage id [] ns).map (·.2) := by
    rw [map_snd_lineage, List.map_id]
    exact member
  obtain ⟨⟨above, m⟩, placed, same⟩ := List.mem_map.1 listed
  obtain rfl : m = n := same
  exact ⟨above, placed⟩

/-- A root lies in nothing but what is above the whole forest. -/
theorem mem_lineage_root {above : List Node} {n : Node} {ns : List Node} (root : n ∈ ns) :
    (above, n) ∈ lineage id above ns := by
  obtain ⟨front, back, rfl⟩ := List.append_of_mem root
  simp [lineage_append, lineage, Node.lineage_eq]

/-- A child lies in its parent and in all that its parent lies in. -/
theorem mem_lineage_child {above as : List Node} {n c : Node} {ns : List Node}
    (member : (as, n) ∈ lineage id above ns) (child : c ∈ n.children) :
    (as ++ [n], c) ∈ lineage id above ns := by
  induction ns using Forest.induct generalizing above with
  | nil => simp [lineage] at member
  | cons m ms below after =>
      simp only [lineage, Node.lineage_eq, id_eq, List.cons_append, List.mem_cons, List.mem_append]
        at member ⊢
      rcases member with root | inside | later
      · obtain ⟨rfl, rfl⟩ := Prod.mk.inj root
        exact .inr (.inl (mem_lineage_root child))
      · exact .inr (.inl (below inside))
      · exact .inr (.inr (after later))

/-- A node is a root, or a child of the last of the nodes it lies in. -/
theorem mem_lineage_cases {above as : List Node} {n : Node} {ns : List Node}
    (member : (as, n) ∈ lineage id above ns) :
    (as = above ∧ n ∈ ns) ∨
      ∃ outer parent, as = outer ++ [parent] ∧ (outer, parent) ∈ lineage id above ns ∧
        n ∈ parent.children := by
  induction ns using Forest.induct generalizing above with
  | nil => simp [lineage] at member
  | cons m ms below after =>
      simp only [lineage, Node.lineage_eq, id_eq, List.cons_append, List.mem_cons, List.mem_append]
        at member ⊢
      rcases member with root | inside | later
      · obtain ⟨rfl, rfl⟩ := Prod.mk.inj root
        exact .inl ⟨rfl, .inl rfl⟩
      · right
        obtain ⟨rfl, child⟩ | ⟨outer, parent, rfl, known, child⟩ := below inside
        · exact ⟨above, m, rfl, .inl rfl, child⟩
        · exact ⟨outer, parent, rfl, .inr (.inl known), child⟩
      · obtain ⟨rfl, root⟩ | ⟨outer, parent, rfl, known, child⟩ := after later
        · exact .inl ⟨rfl, .inr root⟩
        · exact .inr ⟨outer, parent, rfl, .inr (.inr known), child⟩

theorem sublist_nodes (ns : List Node) : ns.Sublist (nodes ns) := by
  induction ns with
  | nil => exact .slnil
  | cons n ns ih =>
      rw [nodes_cons]
      exact (ih.trans (List.sublist_append_right _ _)).cons_cons n

/-- A node and all that lies in it come in this order in the forest. -/
theorem cons_nodes_children_sublist {n : Node} {ns : List Node} (member : n ∈ nodes ns) :
    (n :: nodes n.children).Sublist (nodes ns) := by
  induction ns using Forest.induct with
  | nil => simp at member
  | cons m ms below after =>
      rw [nodes_cons] at member ⊢
      rcases List.mem_cons.1 member with rfl | member
      · exact (List.sublist_append_left _ _).cons_cons n
      · apply List.Sublist.cons
        rcases List.mem_append.1 member with inside | later
        · exact (below inside).trans (List.sublist_append_left _ _)
        · exact (after later).trans (List.sublist_append_right _ _)

/-- Looking a key up in a forest is looking it up in the list of its nodes. -/
theorem find?_eq_find?_nodes (key : NodeKey) (ns : List Node) :
    find? key ns = (nodes ns).find? (·.key = key) := by
  induction ns using Forest.induct with
  | nil => rfl
  | cons n ns below after =>
      rw [find?, Node.find?_eq, nodes_cons, List.find?_cons, List.find?_append, below, after]
      by_cases here : n.key = key <;> simp [here]

end Forest

end Listing

/-- A child put at the end of a node comes after all that was in it, one level further in. -/
theorem Node.lineage_entry_push (n child : Node) (above : List (Nat × Declaration)) :
    (n.push child).lineage Node.entry above =
      n.lineage Node.entry above ++ child.lineage Node.entry (above ++ [n.entry]) := by
  rw [Node.lineage_eq, Node.lineage_eq]
  simp only [Node.push, Forest.lineage_append, Forest.lineage, List.append_nil, List.cons_append]
  rfl

/-! ## Forests in the order of their lines -/

namespace Forest

/-- The lines increase in pre-order; so no two nodes are on one line. -/
def Ordered (ns : List Node) : Prop := (nodes ns).Pairwise (·.line < ·.line)

variable {ns : List Node}

theorem ordered_iff_entries : Ordered ns ↔ (entries ns).Pairwise (·.1 < ·.1) := by
  rw [entries, List.pairwise_map]
  rfl

theorem Ordered.roots (ordered : Ordered ns) : ns.Pairwise (·.line < ·.line) :=
  ordered.sublist (sublist_nodes ns)

/-- Children come after their parent and among themselves in order. -/
theorem Ordered.children (ordered : Ordered ns) {n : Node} (member : n ∈ nodes ns) :
    (∀ c ∈ n.children, n.line < c.line) ∧ n.children.Pairwise (·.line < ·.line) := by
  have listed := ((sublist_nodes n.children).cons_cons n).trans (cons_nodes_children_sublist member)
  exact List.pairwise_cons.1 (ordered.sublist listed)

/-- All that lies in a node comes after it. -/
theorem Ordered.line_lt_of_mem_nodes_children (ordered : Ordered ns) {n m : Node} (member : n ∈ nodes ns)
    (inside : m ∈ nodes n.children) : n.line < m.line :=
  (List.pairwise_cons.1 (ordered.sublist (cons_nodes_children_sublist member))).1 m inside

/-- The nodes are told apart by their lines. -/
theorem Ordered.eq_of_line_eq (ordered : Ordered ns) {n m : Node} (hn : n ∈ nodes ns)
    (hm : m ∈ nodes ns) (same : n.line = m.line) : n = m := by
  have distinct : ((nodes ns).map Node.line).Nodup :=
    List.pairwise_map.2 (List.Pairwise.imp Nat.ne_of_lt ordered)
  exact List.inj_on_of_nodup_map distinct hn hm same

/-- Lists of nodes with the same entries are the same. -/
theorem Ordered.eq_of_map_entry_eq (ordered : Ordered ns) {as bs : List Node}
    (left : ∀ a ∈ as, a ∈ nodes ns) (right : ∀ b ∈ bs, b ∈ nodes ns)
    (same : as.map Node.entry = bs.map Node.entry) : as = bs := by
  induction as generalizing bs with
  | nil => simpa using same.symm
  | cons a as ih =>
      cases bs with
      | nil => simp at same
      | cons b bs =>
          simp only [List.map_cons, List.cons.injEq, List.forall_mem_cons] at same left right
          have head : a = b := ordered.eq_of_line_eq left.1 right.1 (congrArg Prod.fst same.1)
          rw [head, ih left.2 right.2 same.2]

/-- What is known of the nodes around each entry is known of the nodes around each node. -/
theorem Ordered.above_eq_filter (ordered : Ordered ns) {holds : Nat × Declaration → Nat × Declaration → Bool}
    (placed : ∀ above e, (above, e) ∈ lineage Node.entry [] ns → above = (entries ns).filter (holds e))
    {above : List Node} {n : Node} (member : (above, n) ∈ lineage id [] ns) :
    above = (nodes ns).filter fun s => holds n.entry s.entry := by
  have listed : (above.map Node.entry, n.entry) ∈ lineage Node.entry [] ns := by
    rw [lineage_entry_eq]
    exact List.mem_map_of_mem (f := Prod.map (List.map Node.entry) Node.entry) member
  have found := placed _ _ listed
  rw [entries, List.filter_map] at found
  refine ordered.eq_of_map_entry_eq (fun a mem => ?_) (fun a mem => (List.mem_filter.1 mem).1) found
  obtain ⟨inner, rfl, known⟩ := above_of_mem_lineage id member
  simpa using known a mem

end Forest

end CodeOutline
