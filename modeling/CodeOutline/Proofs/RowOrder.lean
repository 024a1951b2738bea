import CodeOutline.Proofs.PanelRows

/-!
# Proofs.RowOrder — the one order that the panel's three ways through its rows agree on

`Panel.visible` says which nodes have a row without going from row to row: of all the nodes in pre-order, each
with the nodes it lies in, it keeps those that lie in no folded one. Nothing is asked of the forest. Nodes that
are no scopes may hold others, and keys may be repeated.

Whatever goes through a forest as the panel does, a node first, then what it shows below it, then the nodes
after it, goes through this list (`eq_map_visible`). So the rows are those of its nodes, each as deep as the
number of nodes it lies in.
-/

namespace CodeOutline

set_option autoImplicit false

open Forest

/-- A node is as deep as the number of nodes it lies in. -/
theorem Forest.map_length_lineage (above : List Node) (ns : List Node) :
    ((lineage id above ns).map fun e => (e.1.length, e.2)) = listing above.length ns := by
  induction ns using Forest.induct generalizing above with
  | nil => rfl
  | cons n ns below after =>
      have inside := below (above ++ [n])
      rw [List.length_append, List.length_singleton] at inside
      simp only [lineage, Node.lineage_eq, listing, Node.listing_eq, id_eq, List.cons_append, List.map_cons,
        List.map_append, inside, after]

namespace Panel

variable (p : Panel)

/-- The nodes of a forest that lie in no folded node, each after the nodes it lies in. -/
def visible (above : List Node) (ns : List Node) : List (List Node × Node) :=
  (lineage id above ns).filter fun e => e.1.all (!p.isCollapsed ·)

/-- A folded node shows nothing of what lies in it, at any depth. -/
theorem visible_eq_nil {above : List Node} {a : Node} (member : a ∈ above) (folded : p.isCollapsed a = true)
    (ns : List Node) : p.visible above ns = [] := by
  refine List.filter_eq_nil_iff.2 ?_
  rintro ⟨as, n⟩ placed all_open
  obtain ⟨inner, rfl, -⟩ := above_of_mem_lineage id placed
  have opened := List.all_eq_true.1 all_open a (List.mem_append_left inner member)
  simp [folded] at opened

/-- In open nodes a node is visible, then come the nodes below it that are, then those after it. -/
theorem visible_cons {above : List Node} (opened : above.all (!p.isCollapsed ·) = true) (n : Node)
    (ns : List Node) :
    p.visible above (n :: ns) =
      (above, n) :: (p.visible (above ++ [n]) (p.childrenOf n) ++ p.visible above ns) := by
  have inside : p.visible (above ++ [n]) n.children = p.visible (above ++ [n]) (p.childrenOf n) := by
    unfold childrenOf
    split
    · rename_i folded
      exact p.visible_eq_nil (by simp) folded n.children
    · rfl
  rw [← inside]
  simp only [visible, lineage, Node.lineage_eq, id_eq, List.cons_append, List.filter_cons, opened, if_true,
    List.filter_append]

/-- **What goes through a forest as the panel does goes through the visible nodes.** -/
theorem eq_map_visible {β : Type} (f : Nat → Node → β) (walk : Nat → List Node → List β)
    (nil : ∀ d, walk d [] = [])
    (cons : ∀ d n ns, walk d (n :: ns) = f d n :: (walk (d + 1) (p.childrenOf n) ++ walk d ns))
    (ns above : List Node) (opened : above.all (!p.isCollapsed ·) = true) :
    walk above.length ns = (p.visible above ns).map fun e => f e.1.length e.2 := by
  induction ns using Forest.induct generalizing above with
  | nil => rw [nil]; rfl
  | cons n ns below after =>
      have inside : walk (above.length + 1) (p.childrenOf n) =
          (p.visible (above ++ [n]) (p.childrenOf n)).map fun e => f e.1.length e.2 := by
        unfold childrenOf
        split
        · rw [nil]; rfl
        · rename_i unfolded
          have still_open : (above ++ [n]).all (!p.isCollapsed ·) = true := by simp [opened, unfolded]
          have deeper := below _ still_open
          rwa [List.length_append] at deeper
      rw [cons, p.visible_cons opened, inside, after above opened, List.map_cons, List.map_append]

theorem rows_eq_map_visible (ns : List Node) :
    p.rows ns = (p.visible [] ns).map fun e => p.row e.1.length e.2 := by
  refine p.eq_map_visible p.row p.rowsAt (fun _ => rfl) (fun d n ns => ?_) ns [] rfl
  rw [rowsAt, rowsOfNode_eq, List.cons_append]

theorem shown_eq_map_visible (ns : List Node) : p.shown ns = (p.visible [] ns).map (·.2) := by
  refine p.eq_map_visible (fun _ n => n) (fun _ => p.shown) (fun _ => rfl) (fun d n ns => ?_) ns [] rfl
  rw [shown, shownNode_eq, List.cons_append]

theorem length_visible (ns : List Node) : (p.visible [] ns).length = p.visibleCount ns := by
  rw [← length_shown, shown_eq_map_visible, List.length_map]

theorem nodeAt?_eq_visible (ns : List Node) (i : Nat) : p.nodeAt? ns i = (p.visible [] ns)[i]?.map (·.2) := by
  rw [nodeAt?_eq_getElem?, shown_eq_map_visible, List.getElem?_map]

/-- **Listing, counting and looking up go through the rows in one order.** Of the nodes of a forest in
pre-order, with their depths, those that lie in no folded node have a row, in this order. The row has the
node's depth, name, kind and line, and says whether the node can be folded and whether it is open. There are
as many rows as are counted, and the node that is looked up by a number is the one whose row has it; where
the rows end, none is found. -/
theorem traversals_agree (p : Panel) (ns : List Node) :
    ((lineage id [] ns).map fun e => (e.1.length, e.2)) = listing 0 ns ∧
      p.rows ns = (p.visible [] ns).map (fun e =>
        { depth := e.1.length, name := e.2.name, kind := e.2.kind, line := e.2.line,
          collapsible := e.2.isCollapsible, expanded := e.2.isCollapsible && !p.isCollapsed e.2 }) ∧
      p.visibleCount ns = (p.rows ns).length ∧
      (∀ i, i < p.visibleCount ns → ∃ above n, (p.visible [] ns)[i]? = some (above, n) ∧
        (p.rows ns)[i]? = some (p.row above.length n) ∧ p.nodeAt? ns i = some n) ∧
      ∀ i, p.visibleCount ns ≤ i → p.nodeAt? ns i = none := by
  refine ⟨map_length_lineage [] ns, p.rows_eq_map_visible ns, ?_, ?_, ?_⟩
  · rw [rows_eq_map_visible, List.length_map, length_visible]
  · intro i inside
    rw [← length_visible] at inside
    have at_i : (p.visible [] ns)[i]? = some (p.visible [] ns)[i] := List.getElem?_eq_getElem inside
    refine ⟨_, _, at_i, ?_, ?_⟩
    · rw [rows_eq_map_visible, List.getElem?_map, at_i]
      rfl
    · rw [nodeAt?_eq_visible, at_i]
      rfl
  · intro i past
    rw [← length_visible] at past
    rw [nodeAt?_eq_visible, List.getElem?_eq_none past]
    rfl

end Panel

end CodeOutline
