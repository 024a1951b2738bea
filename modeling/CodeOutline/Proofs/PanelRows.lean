import CodeOutline.Panel.Basic
import CodeOutline.Proofs.Forest

/-!
# Proofs.PanelRows — the nodes that have a row, and how the panel counts and finds them

`Panel.shown` lists them: a node, then what it shows below it, then the nodes after it. Counting the rows
counts this list (`length_shown`) and looking a row up by its number looks it up in this list
(`nodeAt?_eq_getElem?`), though neither goes through it. So there is a node at a row exactly when the
number is below the count.
-/

namespace CodeOutline

set_option autoImplicit false

namespace Panel

variable (p : Panel)

mutual

def shownNode : Node → List Node
  | ⟨k, n, l, c, cs⟩ =>
      ⟨k, n, l, c, cs⟩ :: if p.isCollapsed ⟨k, n, l, c, cs⟩ then [] else shown cs

/-- The nodes of a forest that have a row, in the order of the rows. -/
def shown : List Node → List Node
  | [] => []
  | n :: ns => shownNode n ++ shown ns

end

theorem shownNode_eq (n : Node) : p.shownNode n = n :: p.shown (p.childrenOf n) := by
  cases n
  simp only [shownNode, childrenOf]
  split <;> rfl

/-- What holds of no nodes and of the children of a node holds of those it shows. -/
theorem childrenOf_induct {P : List Node → Prop} {n : Node} (nil : P []) (children : P n.children) :
    P (p.childrenOf n) := by
  unfold childrenOf
  split
  · exact nil
  · exact children

theorem length_shown (ns : List Node) : (p.shown ns).length = p.visibleCount ns := by
  induction ns using Forest.induct with
  | nil => rfl
  | cons n ns below after =>
      have inside : (p.shown (p.childrenOf n)).length = p.visibleCount (p.childrenOf n) :=
        p.childrenOf_induct (P := fun ms => (p.shown ms).length = p.visibleCount ms) rfl below
      rw [shown, visibleCount, countNode_eq, shownNode_eq, List.length_append, List.length_cons,
        inside, after]
      omega

/-- Going down a list: the node with a number, or how far the number is past the end. -/
def goDown (ns : List Node) (i : Nat) : Except Nat Node :=
  match ns[i]? with
  | some n => .ok n
  | none => .error (i - ns.length)

theorem goDown_append (ns ms : List Node) (i : Nat) :
    goDown (ns ++ ms) i = match goDown ns i with
      | .ok n => .ok n
      | .error rest => goDown ms rest := by
  unfold goDown
  by_cases inside : i < ns.length
  · simp [List.getElem?_append_left inside, List.getElem?_eq_getElem inside]
  · have past : ns.length ≤ i := by omega
    simp [List.getElem?_append_right past, List.getElem?_eq_none past, Nat.sub_sub]

theorem goDown_cons_succ (n : Node) (ns : List Node) (i : Nat) :
    goDown (n :: ns) (i + 1) = goDown ns i := by
  simp [goDown]

/-- Going down the rows of a forest is going down the list of its shown nodes. -/
theorem seek_eq_goDown (i : Nat) (ns : List Node) : p.seek i ns = goDown (p.shown ns) i := by
  induction ns using Forest.induct generalizing i with
  | nil => simp [seek, shown, goDown]
  | cons n ns below after =>
      have inside : ∀ j, p.seek j (p.childrenOf n) = goDown (p.shown (p.childrenOf n)) j :=
        p.childrenOf_induct (P := fun ms => ∀ j, p.seek j ms = goDown (p.shown ms) j)
          (fun j => by simp [seek, shown, goDown]) below
      have first : p.seekNode i n = goDown (p.shownNode n) i := by
        rw [shownNode_eq]
        cases i with
        | zero => exact p.seekNode_zero n
        | succ i => rw [seekNode_succ, inside, goDown_cons_succ]
      rw [seek, shown, goDown_append, first]
      cases goDown (p.shownNode n) i with
      | ok found => rfl
      | error rest => exact after rest

theorem nodeAt?_eq_getElem? (ns : List Node) (i : Nat) : p.nodeAt? ns i = (p.shown ns)[i]? := by
  rw [nodeAt?, seek_eq_goDown, goDown]
  cases (p.shown ns)[i]? <;> rfl

theorem nodeAt?_isSome_iff (ns : List Node) (i : Nat) :
    (p.nodeAt? ns i).isSome ↔ i < p.visibleCount ns := by
  rw [nodeAt?_eq_getElem?, ← length_shown, isSome_getElem?]

/-- A row shows a node of the forest, and no node twice. -/
theorem shown_sublist_nodes (ns : List Node) : (p.shown ns).Sublist (Forest.nodes ns) := by
  induction ns using Forest.induct with
  | nil => exact .slnil
  | cons n ns below after =>
      have inside : (p.shown (p.childrenOf n)).Sublist (Forest.nodes n.children) :=
        p.childrenOf_induct (P := fun ms => (p.shown ms).Sublist (Forest.nodes n.children))
          (List.nil_sublist _) below
      rw [shown, shownNode_eq, Forest.nodes_cons, List.cons_append]
      exact (inside.append after).cons_cons n

theorem mem_nodes_of_nodeAt? {ns : List Node} {i : Nat} {n : Node} (found : p.nodeAt? ns i = some n) :
    n ∈ Forest.nodes ns := by
  rw [nodeAt?_eq_getElem?] at found
  exact (p.shown_sublist_nodes ns).subset (List.mem_of_getElem? found)

theorem visibleCount_le_size (ns : List Node) : p.visibleCount ns ≤ Forest.size ns := by
  rw [← length_shown, ← Forest.length_nodes]
  exact (p.shown_sublist_nodes ns).length_le

variable {p}

theorem childrenOf_congr {q : Panel} (toggled : p.toggled = q.toggled)
    (collapse : p.collapseByDefault = q.collapseByDefault) (n : Node) :
    p.childrenOf n = q.childrenOf n := by
  cases p; cases q; cases toggled; cases collapse
  rfl

/-- Which nodes have a row depends on what is folded and on nothing else of a panel. -/
theorem shown_congr {q : Panel} (toggled : p.toggled = q.toggled)
    (collapse : p.collapseByDefault = q.collapseByDefault) (ns : List Node) :
    p.shown ns = q.shown ns := by
  induction ns using Forest.induct with
  | nil => rfl
  | cons n ns below after =>
      have inside : p.shown (p.childrenOf n) = q.shown (p.childrenOf n) :=
        p.childrenOf_induct (P := fun ms => p.shown ms = q.shown ms) rfl below
      rw [shown, shown, shownNode_eq, shownNode_eq, inside, childrenOf_congr toggled collapse, after]

theorem visibleCount_congr {q : Panel} (toggled : p.toggled = q.toggled)
    (collapse : p.collapseByDefault = q.collapseByDefault) (ns : List Node) :
    p.visibleCount ns = q.visibleCount ns := by
  rw [← length_shown, ← length_shown, shown_congr toggled collapse]

end Panel

end CodeOutline
