import CodeOutline.Proofs.Folding
import CodeOutline.Proofs.RowOrder
import CodeOutline.Proofs.Selection

/-!
# Proofs.RowToggle — turning the node of a row changes that row and the rows beneath it

Folding goes by key and not by place, so in general another node may fold along. In an outline that was built
the lines tell the nodes apart, and so the keys do: panels that differ in one key there agree off one node
(`AgreesOff`). Around the rows of that node all such panels show the same rows (`Around`). What comes after its
block is no deeper than the node itself, so the block is the run of deeper rows right after its row.

The rows before a node do not depend on whether it is folded. So it keeps its number, and a selection on it
stays on it (`clampPanel_keeps_row`).
-/

namespace CodeOutline

set_option autoImplicit false

open Forest

namespace Panel

/-! ## One key -/

section Key

variable (p : Panel) {n m : Node}

/-- A key is remembered after a toggle as it was before, and its own key the other way round. -/
theorem mem_toggled_toggle {k : NodeKey} :
    k ∈ (p.toggle n).toggled ↔ (k = n.key ↔ k ∉ p.toggled) := by
  by_cases own : k = n.key
  · subst own
    unfold toggle
    split <;> simp_all
  · rw [p.mem_toggled_toggle_of_ne own]
    simp [own]

/-- Toggling twice changes nothing at all. -/
theorem toggle_toggle (n : Node) : (p.toggle n).toggle n = p := by
  have toggled : ((p.toggle n).toggle n).toggled = p.toggled := by
    apply KeySet.ext_mem
    intro k
    rw [mem_toggled_toggle, mem_toggled_toggle]
    by_cases own : k = n.key <;> simp [own]
  calc (p.toggle n).toggle n
      = { p with toggled := ((p.toggle n).toggle n).toggled } := rfl
    _ = p := by rw [toggled]

theorem isCollapsed_toggle (foldable : n.isCollapsible = true) :
    (p.toggle n).isCollapsed n = !p.isCollapsed n := by
  rw [isCollapsed_of_collapsible _ foldable, isCollapsed_of_collapsible _ foldable]
  have default : (p.toggle n).collapseByDefault = p.collapseByDefault := rfl
  by_cases known : n.key ∈ p.toggled <;>
    cases shut : p.collapseByDefault <;> simp [default, mem_toggled_toggle, known, shut]

theorem isCollapsed_setCollapsed (foldable : n.isCollapsible = true) (collapsed : Bool) :
    (p.setCollapsed n collapsed).isCollapsed n = collapsed := by
  rw [isCollapsed_of_collapsible _ foldable]
  unfold setCollapsed
  split
  · rename_i same
    simp [same]
  · rename_i other
    cases collapsed <;> cases shut : p.collapseByDefault <;> simp_all

/-- A node is folded as before when the memory of its key is. -/
theorem isCollapsed_eq_of_mem_iff {q : Panel} (default : q.collapseByDefault = p.collapseByDefault)
    (known : m.key ∈ q.toggled ↔ m.key ∈ p.toggled) : q.isCollapsed m = p.isCollapsed m := by
  by_cases foldable : m.isCollapsible = true
  · exact isCollapsed_congr foldable foldable default known
  · simp [isCollapsed, foldable]

end Key

/-! ## Panels that agree off one node -/

/-- One panel folds the nodes of a forest as another does, but perhaps for one node. -/
def AgreesOff (q p : Panel) (n : Node) (ns : List Node) : Prop :=
  ∀ m ∈ nodes ns, m ≠ n → q.isCollapsed m = p.isCollapsed m

section AgreesOff

variable {p q : Panel} {n : Node} {ns : List Node}

theorem AgreesOff.refl (p : Panel) (n : Node) (ns : List Node) : p.AgreesOff p n ns :=
  fun _ _ _ => rfl

/-- Where the lines tell the nodes apart, to remember one key otherwise is to disagree on its node. -/
theorem agreesOff_of_keys (ordered : Ordered ns) (member : n ∈ nodes ns)
    (default : q.collapseByDefault = p.collapseByDefault)
    (others : ∀ k, k ≠ n.key → (k ∈ q.toggled ↔ k ∈ p.toggled)) : q.AgreesOff p n ns := by
  intro m present differs
  refine p.isCollapsed_eq_of_mem_iff default (others m.key ?_)
  intro same
  exact differs (ordered.eq_of_line_eq present member (congrArg NodeKey.line same))

theorem toggle_agreesOff (ordered : Ordered ns) (member : n ∈ nodes ns) :
    (p.toggle n).AgreesOff p n ns :=
  agreesOff_of_keys ordered member rfl fun _ other => p.mem_toggled_toggle_of_ne other

theorem setCollapsed_agreesOff (ordered : Ordered ns) (member : n ∈ nodes ns) (collapsed : Bool) :
    (p.setCollapsed n collapsed).AgreesOff p n ns :=
  agreesOff_of_keys ordered member rfl fun _ other => p.mem_toggled_setCollapsed_of_ne collapsed other

theorem childrenOf_eq (same : q.isCollapsed n = p.isCollapsed n) : q.childrenOf n = p.childrenOf n := by
  simp only [childrenOf, same]

theorem row_eq (same : q.isCollapsed n = p.isCollapsed n) (d : Nat) : q.row d n = p.row d n := by
  simp only [row, same]

/-- Panels that fold a node alike, and show the same of its children, show the same rows of it. -/
theorem rowsOfNode_congr {d : Nat} (same : q.isCollapsed n = p.isCollapsed n)
    (inside : q.rowsAt (d + 1) n.children = p.rowsAt (d + 1) n.children) :
    q.rowsOfNode d n = p.rowsOfNode d n := by
  have shown_inside : q.rowsAt (d + 1) (p.childrenOf n) = p.rowsAt (d + 1) (p.childrenOf n) :=
    p.childrenOf_induct (P := fun ms => q.rowsAt (d + 1) ms = p.rowsAt (d + 1) ms) rfl inside
  rw [rowsOfNode_eq, rowsOfNode_eq, row_eq same, childrenOf_eq same, shown_inside]

/-- Panels that fold all nodes of a forest alike show the same rows. -/
theorem rowsAt_congr (same : ∀ m ∈ nodes ns, q.isCollapsed m = p.isCollapsed m) (d : Nat) :
    q.rowsAt d ns = p.rowsAt d ns := by
  induction ns using Forest.induct generalizing d with
  | nil => rfl
  | cons m ns below after =>
      simp only [nodes_cons, List.mem_cons, List.mem_append] at same
      have here : q.isCollapsed m = p.isCollapsed m := same m (.inl rfl)
      have inside : q.rowsAt (d + 1) m.children = p.rowsAt (d + 1) m.children :=
        below (fun c member => same c (.inr (.inl member))) (d + 1)
      rw [rowsAt, rowsAt, rowsOfNode_congr here inside, after (fun c member => same c (.inr (.inr member))) d]

theorem AgreesOff.children {m : Node} (agrees : q.AgreesOff p n (m :: ns)) : q.AgreesOff p n m.children :=
  fun c member => agrees c (by simp [nodes_cons, member])

theorem AgreesOff.tail {m : Node} (agrees : q.AgreesOff p n (m :: ns)) : q.AgreesOff p n ns :=
  fun c member => agrees c (by simp [nodes_cons, member])

theorem AgreesOff.head {m : Node} (agrees : q.AgreesOff p n (m :: ns)) (other : m ≠ n) :
    q.isCollapsed m = p.isCollapsed m :=
  agrees m (by simp [nodes_cons]) other

/-- Panels that agree off a node show the same of a forest that it is not in. -/
theorem AgreesOff.rowsAt_eq (agrees : q.AgreesOff p n ns) (absent : n ∉ nodes ns) (d : Nat) :
    q.rowsAt d ns = p.rowsAt d ns :=
  rowsAt_congr (fun m member => agrees m member fun same => absent (same ▸ member)) d

theorem AgreesOff.rowsOfNode_eq {m : Node} (agrees : q.AgreesOff p n (m :: ns)) (other : m ≠ n)
    (absent : n ∉ nodes m.children) (d : Nat) : q.rowsOfNode d m = p.rowsOfNode d m :=
  rowsOfNode_congr (agrees.head other) (agrees.children.rowsAt_eq absent (d + 1))

end AgreesOff

/-! ## The rows around a node -/

section Rows

variable {p : Panel} {ns : List Node}

/-- The lines of the rows are those of the nodes shown. -/
theorem map_line_rowsAt (p : Panel) (d : Nat) (ns : List Node) :
    (p.rowsAt d ns).map Row.line = (p.shown ns).map Node.line := by
  induction ns using Forest.induct generalizing d with
  | nil => rfl
  | cons n ns below after =>
      have inside : (p.rowsAt (d + 1) (p.childrenOf n)).map Row.line =
          (p.shown (p.childrenOf n)).map Node.line :=
        p.childrenOf_induct (P := fun ms => (p.rowsAt (d + 1) ms).map Row.line = (p.shown ms).map Node.line)
          rfl (below (d + 1))
      simp only [rowsAt, rowsOfNode_eq, shown, shownNode_eq, List.cons_append, List.map_cons,
        List.map_append, inside, after, row]

theorem length_rowsAt (p : Panel) (d : Nat) (ns : List Node) :
    (p.rowsAt d ns).length = (p.shown ns).length := by
  simpa using congrArg List.length (p.map_line_rowsAt d ns)

/-- The rows of a forest are as deep as its roots, or deeper. -/
theorem le_depth_of_mem_rowsAt {d : Nat} {r : Row} (member : r ∈ p.rowsAt d ns) : d ≤ r.depth := by
  induction ns using Forest.induct generalizing d with
  | nil => simp [rowsAt] at member
  | cons n ns below after =>
      rw [rowsAt, rowsOfNode_eq, List.cons_append, List.mem_cons, List.mem_append] at member
      rcases member with rfl | inside | later
      · exact Nat.le_refl d
      · unfold childrenOf at inside
        split at inside
        · simp [rowsAt] at inside
        · exact Nat.le_of_succ_le (below inside)
      · exact after later

/-- The first row of a forest, if it has one, is that of a root. -/
theorem depth_of_head?_rowsAt {d : Nat} {r : Row} (first : (p.rowsAt d ns).head? = some r) : r.depth = d := by
  cases ns with
  | nil => simp [rowsAt] at first
  | cons n ns =>
      rw [rowsAt, rowsOfNode_eq, List.cons_append, List.head?_cons, Option.some.injEq] at first
      rw [← first]
      rfl

/-- What the panels that agree off a node show of a forest: the same rows before those of the node and after
them, the first of those after it no deeper than the node, and the same of what it holds. -/
structure Around (p : Panel) (n : Node) (top : Nat) (ns : List Node) (front back : List Row)
    (depth : Nat) : Prop where
  reached : top ≤ depth
  next : ∀ r, back.head? = some r → r.depth ≤ depth
  rows : ∀ q : Panel, q.AgreesOff p n ns → q.rowsAt top ns = front ++ (q.rowsOfNode depth n ++ back)
  block : ∀ q : Panel, q.AgreesOff p n ns → ∀ d, q.rowsAt d n.children = p.rowsAt d n.children

section Around

variable {n m : Node} {top depth : Nat} {front back : List Row}

theorem around_first (below : n ∉ nodes n.children) (absent : n ∉ nodes ns) :
    p.Around n top (n :: ns) [] (p.rowsAt top ns) top where
  reached := Nat.le_refl top
  next _ first := Nat.le_of_eq (depth_of_head?_rowsAt first)
  rows q agrees := by
    rw [rowsAt, agrees.tail.rowsAt_eq absent, List.nil_append]
  block _ agrees := agrees.children.rowsAt_eq below

/-- A node that holds the node is open then, in every panel that agrees. -/
theorem Around.inside (around : p.Around n (top + 1) m.children front back depth)
    (unfolded : p.isCollapsed m = false) (other : m ≠ n) (absent : n ∉ nodes ns) :
    p.Around n top (m :: ns) (p.row top m :: front) (back ++ p.rowsAt top ns) depth where
  reached := Nat.le_of_succ_le around.reached
  next r first := by
    cases back with
    | nil =>
        have root := depth_of_head?_rowsAt first
        have reached := around.reached
        omega
    | cons next rest => exact around.next r first
  rows q agrees := by
    have same : q.isCollapsed m = p.isCollapsed m := agrees.head other
    have children : q.childrenOf m = m.children := by simp [childrenOf, same, unfolded]
    rw [rowsAt, Panel.rowsOfNode_eq, row_eq same, children, around.rows q agrees.children,
      agrees.tail.rowsAt_eq absent]
    simp only [List.cons_append, List.append_assoc]
  block q agrees := around.block q agrees.children

theorem Around.after (around : p.Around n top ns front back depth) (other : m ≠ n)
    (absent : n ∉ nodes m.children) : p.Around n top (m :: ns) (p.rowsOfNode top m ++ front) back depth where
  reached := around.reached
  next := around.next
  rows q agrees := by
    rw [rowsAt, agrees.rowsOfNode_eq other absent, around.rows q agrees.tail, List.append_assoc]
  block q agrees := around.block q agrees.tail

end Around

/-- In a forest without repeated nodes every row has its surroundings. -/
theorem exists_around {n : Node} {i : Nat} (distinct : (nodes ns).Nodup)
    (row : (p.shown ns)[i]? = some n) (top : Nat) :
    ∃ front back depth, front.length = i ∧ p.Around n top ns front back depth := by
  induction ns using Forest.induct generalizing i top with
  | nil => simp [shown] at row
  | cons m ns below after =>
      rw [nodes_cons, List.nodup_cons, List.mem_append, List.nodup_append] at distinct
      obtain ⟨once, inner, outer, apart⟩ := distinct
      rw [shown, shownNode_eq, List.cons_append] at row
      cases i with
      | zero =>
          obtain rfl : m = n := by simpa using row
          exact ⟨[], _, top, rfl, around_first (fun inside => once (.inl inside)) fun later => once (.inr later)⟩
      | succ j =>
          rw [List.getElem?_cons_succ] at row
          by_cases within : j < (p.shown (p.childrenOf m)).length
          · rw [List.getElem?_append_left within] at row
            have unfolded : p.isCollapsed m = false := by
              cases folded : p.isCollapsed m with
              | false => rfl
              | true => simp [childrenOf, folded, shown] at row
            rw [show p.childrenOf m = m.children by simp [childrenOf, unfolded]] at row
            have member : n ∈ nodes m.children := (p.shown_sublist_nodes _).subset (List.mem_of_getElem? row)
            obtain ⟨front, back, depth, length, around⟩ := below inner row (top + 1)
            exact ⟨_, _, depth, by rw [List.length_cons, length],
              around.inside unfolded (fun same => once (.inl (same ▸ member)))
                fun later => apart n member n later rfl⟩
          · have past : (p.shown (p.childrenOf m)).length ≤ j := Nat.le_of_not_lt within
            rw [List.getElem?_append_right past] at row
            have member : n ∈ nodes ns := (p.shown_sublist_nodes _).subset (List.mem_of_getElem? row)
            obtain ⟨front, back, depth, length, around⟩ := after outer row top
            refine ⟨_, _, depth, ?_, around.after (fun same => once (.inr (same ▸ member)))
              fun inside => apart n inside n member rfl⟩
            rw [List.length_append, Panel.rowsOfNode_eq, List.length_cons, length_rowsAt, length]
            omega

/-- The run of deeper rows after that of an open node is the block of what it shows. -/
theorem dropWhile_block {d : Nat} {cs : List Node} {back : List Row}
    (next : ∀ r, back.head? = some r → r.depth ≤ d) :
    (p.rowsAt (d + 1) cs ++ back).dropWhile (d < ·.depth) = back := by
  rw [List.dropWhile_append_of_pos]
  · cases back with
    | nil => rfl
    | cons r rest =>
        have level : r.depth ≤ d := next r rfl
        rw [List.dropWhile_cons_of_neg]
        simpa using level
  · intro r member
    exact decide_eq_true (le_depth_of_mem_rowsAt member)

end Rows

section Turned

variable {p q : Panel} {ns : List Node} {n : Node} {i : Nat}

/-- The nodes of a forest in the order of their lines are all different. -/
theorem nodup_nodes (ordered : Ordered ns) : (nodes ns).Nodup :=
  List.Pairwise.imp (fun before same => Nat.ne_of_lt before (congrArg Node.line same)) ordered

/-- **What turning a node does to the rows.** -/
theorem rows_of_turned (ordered : Ordered ns) (row : p.nodeAt? ns i = some n)
    (foldable : n.isCollapsible = true) (agrees : q.AgreesOff p n ns)
    (turned : q.isCollapsed n = !p.isCollapsed n) :
    ∃ r, (p.rows ns)[i]? = some r ∧ r = p.row r.depth n ∧
      q.rows ns = (p.rows ns).take i ++ { r with expanded := !r.expanded } ::
        if r.expanded then ((p.rows ns).drop (i + 1)).dropWhile (r.depth < ·.depth)
        else p.rowsAt (r.depth + 1) n.children ++ (p.rows ns).drop (i + 1) := by
  rw [nodeAt?_eq_getElem?] at row
  obtain ⟨front, back, d, rfl, around⟩ := exists_around (nodup_nodes ordered) row 0
  have old : p.rows ns = front ++ p.row d n :: (p.rowsAt (d + 1) (p.childrenOf n) ++ back) := by
    rw [rows, around.rows p (.refl p n ns), rowsOfNode_eq, List.cons_append]
  have new : q.rows ns = front ++ q.row d n :: (q.rowsAt (d + 1) (q.childrenOf n) ++ back) := by
    rw [rows, around.rows q agrees, rowsOfNode_eq, List.cons_append]
  have flipped : q.row d n = { p.row d n with expanded := !(p.row d n).expanded } := by
    simp [Panel.row, turned, foldable]
  have opened : (p.row d n).expanded = !p.isCollapsed n := by simp [Panel.row, foldable]
  have before : (p.rows ns).take front.length = front := by rw [old, List.take_left]
  have later : (p.rows ns).drop (front.length + 1) = p.rowsAt (d + 1) (p.childrenOf n) ++ back := by
    rw [old, ← List.drop_drop, List.drop_left]
    rfl
  refine ⟨p.row d n, by rw [old]; simp, rfl, ?_⟩
  rw [new, flipped, before, later, opened]
  cases folded : p.isCollapsed n with
  | false =>
      have hidden : q.childrenOf n = [] := by simp [childrenOf, turned, folded]
      have block : (p.rowsAt (d + 1) (p.childrenOf n) ++ back).dropWhile (d < ·.depth) = back :=
        dropWhile_block around.next
      rw [hidden, if_pos (by rfl)]
      exact congrArg (fun tail => front ++ _ :: tail) block.symm
  | true =>
      have hidden : p.childrenOf n = [] := by simp [childrenOf, folded]
      have revealed : q.childrenOf n = n.children := by simp [childrenOf, turned, folded]
      rw [hidden, revealed, around.block q agrees, if_neg (by simp)]
      rfl

/-- A node has its row at the same number whether or not it is folded. -/
theorem AgreesOff.nodeAt?_eq (agrees : q.AgreesOff p n ns) (ordered : Ordered ns)
    (row : p.nodeAt? ns i = some n) : q.nodeAt? ns i = some n := by
  have member : n ∈ nodes ns := p.mem_nodes_of_nodeAt? row
  rw [nodeAt?_eq_getElem?] at row ⊢
  obtain ⟨front, back, d, rfl, around⟩ := exists_around (nodup_nodes ordered) row 0
  have line : ((q.shown ns).map Node.line)[front.length]? = some n.line := by
    rw [← q.map_line_rowsAt 0, around.rows q agrees, Panel.rowsOfNode_eq]
    simp [Panel.row]
  rw [List.getElem?_map, Option.map_eq_some_iff] at line
  obtain ⟨m, found, same⟩ := line
  have present : m ∈ nodes ns := (q.shown_sublist_nodes ns).subset (List.mem_of_getElem? found)
  rw [found, ordered.eq_of_line_eq present member same]

theorem selected_clampTo {total : Nat} (chosen : p.selected = some i) (inside : i < total) :
    (p.clampTo total).selected = some i := by
  have some_row : total ≠ 0 := by omega
  have stays : min i (total - 1) = i := by omega
  simp [clampTo, some_row, chosen, stays]

theorem nodeAt?_clampTo (p : Panel) (total : Nat) (ns : List Node) (i : Nat) :
    (p.clampTo total).nodeAt? ns i = p.nodeAt? ns i := by
  rw [nodeAt?_eq_getElem?, nodeAt?_eq_getElem?,
    shown_congr (p.toggled_clampTo total) (Session.collapseByDefault_clampTo p total)]

end Turned

end Panel

/-! ## Sessions -/

theorem Builder.ordered_build (b : Builder) (lines : List String) (revision : UInt64) :
    Ordered (b.build lines revision).roots :=
  (tally_run lines).ordered

namespace Session

theorem ordered_freshOutline (b : Builder) (document : Option Document) :
    Ordered (freshOutline b document).roots := by
  cases document with
  | none => exact .nil
  | some d => exact b.ordered_build (LineSource.lines d) d.revision

theorem Refold.ordered {s t : Session} {m : Message} (refold : Refold s m t) (before : Ordered s.outline.roots) :
    Ordered t.outline.roots := by
  cases refold with
  | kept _ outline => exact outline ▸ before
  | turned _ outline => exact outline ▸ before
  | rebuilt t => exact ordered_freshOutline t.builder t.document

/-- The outline of every session is in the order of its lines. -/
theorem Reachable.ordered {s : Session} (reach : s.Reachable) : Ordered s.outline.roots := by
  induction reach with
  | new config => exact .nil
  | withDocument config d => exact ordered_freshOutline _ _
  | update _ m ih => exact (update_refold _ m).ordered ih

section Row

variable {s : Session} {i : Nat} {n : Node}

/-- Fitting a panel that agrees off a selected node leaves it selected, with the same number. -/
theorem clampPanel_keeps_row (ordered : Ordered s.outline.roots) (row : s.nodeAtRow? i = some n) {q : Panel}
    (agrees : q.AgreesOff s.panel n s.outline.roots) (chosen : q.selected = some i) :
    (clampPanel { s with panel := q }).panel.selected = some i ∧
      (clampPanel { s with panel := q }).nodeAtRow? i = some n := by
  have still : q.nodeAt? s.outline.roots i = some n := agrees.nodeAt?_eq ordered row
  have inside : i < q.visibleCount s.outline.roots :=
    (q.nodeAt?_isSome_iff s.outline.roots i).1 (Option.isSome_of_eq_some still)
  exact ⟨Panel.selected_clampTo chosen inside, (q.nodeAt?_clampTo _ _ i).trans still⟩

theorem click_chevron_keeps_row (ordered : Ordered s.outline.roots) (row : s.nodeAtRow? i = some n)
    (foldable : n.isCollapsible = true) (clicks : Nat) :
    (s.update (.click i clicks true)).1.panel.selected = some i ∧
      (s.update (.click i clicks true)).1.nodeAtRow? i = some n := by
  have turned : (s.update (.click i clicks true)).1 =
      clampPanel { s with panel := Panel.toggle { s.panel with selected := some i } n } := by
    simp [update, click, row, foldable, select]
  rw [turned]
  refine clampPanel_keeps_row ordered row (fun m member other => ?_) rfl
  exact Panel.toggle_agreesOff ordered (s.panel.mem_nodes_of_nodeAt? row) m member other

theorem setSelectedCollapsed_keeps_row (reach : s.Reachable) (collapsed : Bool) :
    (s.setSelectedCollapsed collapsed).panel.selected = s.panel.selected ∧
      (s.setSelectedCollapsed collapsed).selectedNode? = s.selectedNode? := by
  have ordered := reach.ordered
  cases chosen : s.panel.selected with
  | none => simp [setSelectedCollapsed, chosen]
  | some i =>
      have inside : i < s.rowCount := reach.inRows.selected i chosen
      obtain ⟨n, row⟩ := Option.isSome_iff_exists.1 ((s.panel.nodeAt?_isSome_iff s.outline.roots i).2 inside)
      have row : s.nodeAtRow? i = some n := row
      obtain ⟨q, agrees, same_selected, turned⟩ : ∃ q : Panel, q.AgreesOff s.panel n s.outline.roots ∧
          q.selected = some i ∧ s.setSelectedCollapsed collapsed = clampPanel { s with panel := q } := by
        by_cases foldable : n.isCollapsible = true
        · refine ⟨s.panel.setCollapsed n collapsed, ?_, chosen, ?_⟩
          · exact Panel.setCollapsed_agreesOff ordered (s.panel.mem_nodes_of_nodeAt? row) collapsed
          · simp [setSelectedCollapsed, chosen, row, foldable]
        · refine ⟨s.panel, .refl _ _ _, chosen, ?_⟩
          simp [setSelectedCollapsed, chosen, row, foldable]
      obtain ⟨selected, node⟩ := clampPanel_keeps_row ordered row agrees same_selected
      rw [turned]
      refine ⟨selected, ?_⟩
      rw [selectedNode?, selectedNode?, selected, chosen]
      exact node.trans row.symm

end Row

end Session

/-- **Turning the node of a row opens or closes the block beneath it and does nothing else.** In a built
outline, the rows before it stay, its own row says that it is open where it said folded and the other way
round, and the rows after it lose the run of deeper ones, or go on after what the node shows now. Turning it
twice gives the panel as it was. Folding or opening a node makes it so and leaves every other node as it was.
So in every session the clicked or selected row keeps its number and its node. -/
theorem turning_a_row :
    (∀ (b : Builder) (lines : List String) (revision : UInt64) (p : Panel) (i : Nat) (n : Node),
      let roots := (b.build lines revision).roots
      p.nodeAt? roots i = some n → n.isCollapsible = true →
      ∃ r, (p.rows roots)[i]? = some r ∧ r = p.row r.depth n ∧
        ((p.toggle n).rows roots = (p.rows roots).take i ++ { r with expanded := !r.expanded } ::
          if r.expanded then ((p.rows roots).drop (i + 1)).dropWhile (r.depth < ·.depth)
          else p.rowsAt (r.depth + 1) n.children ++ (p.rows roots).drop (i + 1)) ∧
        ∀ below ∈ p.rowsAt (r.depth + 1) n.children, r.depth < below.depth) ∧
    (∀ (p : Panel) (n : Node), (p.toggle n).toggle n = p) ∧
    (∀ (b : Builder) (lines : List String) (revision : UInt64) (p : Panel) (collapsed : Bool),
      let roots := (b.build lines revision).roots
      ∀ n ∈ nodes roots, n.isCollapsible = true →
        (p.setCollapsed n collapsed).isCollapsed n = collapsed ∧
          ∀ m ∈ nodes roots, m ≠ n → (p.setCollapsed n collapsed).isCollapsed m = p.isCollapsed m) ∧
    ∀ s : Session, s.Reachable →
      (∀ i clicks n, s.nodeAtRow? i = some n → n.isCollapsible = true →
        let t := (s.update (.click i clicks true)).1
        t.panel.selected = some i ∧ t.nodeAtRow? i = some n) ∧
      ∀ m, m = .expandSelected ∨ m = .collapseSelected →
        let t := (s.update m).1
        t.panel.selected = s.panel.selected ∧ t.selectedNode? = s.selectedNode? := by
  refine ⟨?_, Panel.toggle_toggle, ?_, ?_⟩
  · intro b lines revision p i n roots row foldable
    have ordered : Ordered roots := b.ordered_build lines revision
    have agrees : (p.toggle n).AgreesOff p n roots :=
      Panel.toggle_agreesOff ordered (p.mem_nodes_of_nodeAt? row)
    obtain ⟨r, at_row, own, rows⟩ := Panel.rows_of_turned ordered row foldable agrees
      (p.isCollapsed_toggle foldable)
    exact ⟨r, at_row, own, rows, fun below member => Panel.le_depth_of_mem_rowsAt member⟩
  · intro b lines revision p collapsed roots n member foldable
    exact ⟨p.isCollapsed_setCollapsed foldable collapsed,
      Panel.setCollapsed_agreesOff (b.ordered_build lines revision) member collapsed⟩
  · intro s reach
    constructor
    · intro i clicks n row foldable
      exact Session.click_chevron_keeps_row reach.ordered row foldable clicks
    · rintro m (rfl | rfl)
      · exact Session.setSelectedCollapsed_keeps_row reach false
      · exact Session.setSelectedCollapsed_keeps_row reach true

/-- A class with an open method in it: folding the class takes the rows of the method and of its attribute away
and leaves the variable after them. A click on the chevron of the folded class selects it and opens it there. -/
theorem turning_a_row_of_nested :
    let d : Document := { text := "class A \x7b\nrun() \x7b\nx = 1\n\x7d\n\x7d\nlet y = 2" }
    let run : Node := ⟨.functionDecl, "run", 1, some 0, [.leaf .attributeDecl "x" 2 (some 0)]⟩
    let a : Node := ⟨.classDecl, "A", 0, some 0, [run]⟩
    let roots := (Builder.build {} (LineSource.lines d) 0).roots
    let p := Panel.toggle (Panel.toggle {} a) run
    let t := ((Session.withDocument {} d).update (.click 0 1 true)).1
    (p.rows roots).map (fun r => (r.depth, r.name, r.expanded)) =
        [(0, "A", true), (1, "run", true), (2, "x", false), (0, "y", false)] ∧
      ((p.toggle a).rows roots).map (fun r => (r.depth, r.name, r.expanded)) =
        [(0, "A", false), (0, "y", false)] ∧
      (p.toggle a).toggle a = p ∧ (p.setCollapsed run true).isCollapsed a = p.isCollapsed a ∧
      t.panel.selected = some 0 ∧ t.nodeAtRow? 0 = some a := by
  intro d run a roots p
  obtain ⟨rows, twice, others, sessions⟩ := turning_a_row
  obtain ⟨row, old, first, member, member', row'⟩ : p.nodeAt? roots 0 = some a ∧
      (p.rows roots).map (fun r => (r.depth, r.name, r.expanded)) =
        [(0, "A", true), (1, "run", true), (2, "x", false), (0, "y", false)] ∧
      (p.rows roots)[0]? = some ⟨0, "A", .classDecl, 0, true, true⟩ ∧ run ∈ nodes roots ∧ a ∈ nodes roots ∧
      (Session.withDocument {} d).nodeAtRow? 0 = some a := by
    decide +kernel
  refine ⟨old, ?_, twice p a, ?_, ?_⟩
  · obtain ⟨r, at_row, -, new, -⟩ := rows {} (LineSource.lines d) 0 p 0 a row rfl
    cases Option.some.inj (first.symm.trans at_row)
    rw [new]
    decide +kernel
  · exact (others {} (LineSource.lines d) 0 p true run member rfl).2 a member' (by decide)
  · exact (sessions _ (.withDocument {} d)).1 0 1 a row' rfl

end CodeOutline
