import CodeOutline.Proofs.SiblingNames

/-!
# Proofs.EarlierLines — what a text's first lines produce stays as it is, whatever lines follow

`Forest.keepLines` takes out of a forest the nodes on the lines that are not to be kept, at any depth, and
nothing else: what such a node holds moves up to its place. On the lineage this is a filter, on the entries
and on the paths they stand under (`lineage_keepLines`). A forest is told by its lineage
(`eq_of_lineage_eq`), so statements about a forest with nodes taken out are statements about filtered lists.

Later lines add to the lineage at its end, under lines of their own, and scopes that are closed at the end
of the text or a hundred lines later leave the same entries. So taking out what stands on later lines gives
back the outline of the first lines (`build_append_keepLines`). In an outline the lines increase inwards, so
there a node is taken out with all that lies in it.
-/

namespace CodeOutline

set_option autoImplicit false

open CodeOutline.Line

mutual

def Node.keepLines (keep : Nat → Bool) : Node → List Node
  | ⟨k, n, l, c, cs⟩ =>
      if keep l then [⟨k, n, l, c, Forest.keepLines keep cs⟩] else Forest.keepLines keep cs

/-- A forest without the nodes on lines that are not kept; what they hold takes their place. -/
def Forest.keepLines (keep : Nat → Bool) : List Node → List Node
  | [] => []
  | n :: ns => n.keepLines keep ++ Forest.keepLines keep ns

end

theorem Node.keepLines_eq (keep : Nat → Bool) (n : Node) :
    n.keepLines keep =
      if keep n.line then [{ n with children := Forest.keepLines keep n.children }]
      else Forest.keepLines keep n.children := by
  cases n; rfl

namespace Forest

/-! ## A forest is told by its lineage -/

section Told

variable {α : Type} {f : Node → α}

theorem length_le_of_mem_lineage {above : List α} {ns : List Node} {a : List α × α}
    (member : a ∈ lineage f above ns) : above.length ≤ a.1.length := by
  obtain ⟨inner, path, -⟩ := above_of_mem_lineage f member
  rw [path, List.length_append]
  omega

/-- What stands further in ends where the next node on this level begins. -/
theorem takeWhile_lineage (above : List α) (x : α) (cs ns : List Node) :
    (lineage f (above ++ [x]) cs ++ lineage f above ns).takeWhile (above.length < ·.1.length) =
      lineage f (above ++ [x]) cs := by
  have inside : ∀ a ∈ lineage f (above ++ [x]) cs, decide (above.length < a.1.length) = true := by
    intro a member
    have le := length_le_of_mem_lineage member
    rw [List.length_append, List.length_singleton] at le
    exact decide_eq_true (by omega)
  rw [List.takeWhile_append_of_pos inside]
  cases ns with
  | nil => simp [lineage]
  | cons n ns => simp [lineage, Node.lineage_eq]

/-- Forests whose nodes have the same entries at the same places are the same. -/
theorem eq_of_lineage_eq {above : List (Nat × Declaration)} {ns ms : List Node}
    (same : lineage Node.entry above ns = lineage Node.entry above ms) : ns = ms := by
  induction ns using Forest.induct generalizing above ms with
  | nil =>
      cases ms with
      | nil => rfl
      | cons m ms => simp [lineage, Node.lineage_eq] at same
  | cons n ns below after =>
      cases ms with
      | nil => simp [lineage, Node.lineage_eq] at same
      | cons m ms =>
          simp only [lineage, Node.lineage_eq, List.cons_append, List.cons.injEq, Prod.mk.injEq,
            true_and] at same
          obtain ⟨entry, rest⟩ := same
          rw [← entry] at rest
          have inside := congrArg (List.takeWhile (above.length < ·.1.length)) rest
          rw [takeWhile_lineage, takeWhile_lineage] at inside
          rw [inside, List.append_cancel_left_eq] at rest
          have children : n.children = m.children := below inside
          have node : n = m := by
            cases n; cases m
            simp_all [Node.entry]
          rw [node, after rest]

end Told

/-! ## Taking nodes out -/

section Kept

variable (keep : Nat → Bool)

/-- The entries on lines that are kept, under what is kept of their paths. -/
def keptLineage (as : List (List (Nat × Declaration) × (Nat × Declaration))) :
    List (List (Nat × Declaration) × (Nat × Declaration)) :=
  (as.filter (keep ·.2.1)).map (Prod.map (List.filter (keep ·.1)) id)

theorem keptLineage_append (as bs : List (List (Nat × Declaration) × (Nat × Declaration))) :
    keptLineage keep (as ++ bs) = keptLineage keep as ++ keptLineage keep bs := by
  rw [keptLineage, List.filter_append, List.map_append]
  rfl

theorem keptLineage_cons (a : List (Nat × Declaration) × (Nat × Declaration))
    (as : List (List (Nat × Declaration) × (Nat × Declaration))) :
    keptLineage keep (a :: as) =
      if keep a.2.1 then (a.1.filter (keep ·.1), a.2) :: keptLineage keep as
      else keptLineage keep as := by
  unfold keptLineage
  rw [List.filter_cons]
  split <;> rfl

/-- On the lineage, taking nodes out is a filter on the entries and on their paths: a node that is kept stands
above what is kept of its children, and otherwise they stand in its place. -/
theorem lineage_keepLines (above : List (Nat × Declaration)) (ns : List Node) :
    lineage Node.entry (above.filter (keep ·.1)) (keepLines keep ns) =
      keptLineage keep (lineage Node.entry above ns) := by
  induction ns using Forest.induct generalizing above with
  | nil => rfl
  | cons n ns below after =>
      have inside := below (above ++ [n.entry])
      rw [List.filter_append] at inside
      rw [keepLines, lineage_append, lineage, keptLineage_append, after, Node.lineage_eq, keptLineage_cons,
        ← inside, n.keepLines_eq]
      congr 1
      by_cases kept : keep n.line
      · have own : keep n.entry.1 = true := kept
        simp only [kept, own, if_true, lineage, Node.lineage_eq, List.filter_cons, List.filter_nil,
          List.append_nil]
        rfl
      · have own : ¬ keep n.entry.1 = true := kept
        simp only [kept, own, if_false, List.filter_cons, List.filter_nil, List.append_nil,
          Bool.false_eq_true]

variable {keep} {as : List (List (Nat × Declaration) × (Nat × Declaration))}

/-- A lineage on lines that are all kept stays as it is. -/
theorem keptLineage_eq_self (entries : ∀ a ∈ as, keep a.2.1 = true)
    (paths : ∀ a ∈ as, ∀ e ∈ a.1, keep e.1 = true) : keptLineage keep as = as := by
  rw [keptLineage, List.filter_eq_self.2 entries]
  conv_rhs => rw [← List.map_id as]
  apply List.map_congr_left
  intro a member
  exact Prod.ext (List.filter_eq_self.2 (paths a member)) rfl

/-- Of a lineage on lines of which none is kept nothing stays. -/
theorem keptLineage_eq_nil (entries : ∀ a ∈ as, keep a.2.1 = false) : keptLineage keep as = [] := by
  rw [keptLineage, List.map_eq_nil_iff, List.filter_eq_nil_iff]
  intro a member
  simp [entries a member]

end Kept

end Forest

namespace Builder

open Forest

/-- The paths of a lineage are made of its entries, so all its lines are below the number of lines read. -/
theorem Tally.lineage_lt {b : Builder} {lines : List String} {p : Progress} (tally : b.Tally lines p)
    {a : List (Nat × Declaration) × (Nat × Declaration)}
    (member : a ∈ lineage Node.entry [] p.forest) :
    a.2.1 < lines.length ∧ ∀ e ∈ a.1, e.1 < lines.length := by
  constructor
  · exact tally.line_lt (mem_entries_of_mem_lineage member)
  · obtain ⟨inner, path, known⟩ := above_of_mem_lineage Node.entry member
    intro e above
    rw [path, List.nil_append] at above
    exact tally.line_lt (known e above)

/-- **Later lines change nothing that earlier lines produced.** Without the nodes that stand on the later
lines, an outline is that of the earlier lines, however it nests and whether or not it drops repeated names.
Whatever lies in a node that is taken out is taken out with it, so nothing moves up. -/
theorem build_append_keepLines (b : Builder) (lines more : List String) (revision revision' : UInt64) :
    let o := b.build (lines ++ more) revision
    keepLines (· < lines.length) o.roots = (b.build lines revision').roots ∧
      ∀ n ∈ nodes o.roots, lines.length ≤ n.line → ∀ m ∈ nodes n.children, lines.length ≤ m.line := by
  intro o
  have tally : b.Tally lines (b.run lines) := tally_run lines
  obtain ⟨late, lineages, after⟩ := b.lineage_run_append lines more
  have early : keptLineage (· < lines.length) (lineage Node.entry [] (b.run lines).forest) =
      lineage Node.entry [] (b.run lines).forest := by
    apply keptLineage_eq_self
    · intro a member
      exact decide_eq_true (tally.lineage_lt member).1
    · intro a member e above
      exact decide_eq_true ((tally.lineage_lt member).2 e above)
  have gone : keptLineage (· < lines.length) late = [] := by
    apply keptLineage_eq_nil
    intro a member
    exact decide_eq_false (Nat.not_lt.2 (after a member))
  have pruned := lineage_keepLines (· < lines.length) [] (b.run (lines ++ more)).forest
  rw [lineages, keptLineage_append, early, gone, List.append_nil] at pruned
  refine ⟨eq_of_lineage_eq pruned, fun n member removed m inside => ?_⟩
  have ordered : Ordered o.roots := (tally_run (lines ++ more)).ordered
  have below : n.line < m.line := ordered.line_lt_of_mem_nodes_children member inside
  omega

/-- A class that the first two lines leave open holds what they declare in it, with or without the lines
that go on inside it and close it. -/
example :
    let b : Builder := {}
    let o := b.build ["class A \x7b", "  x = 1", "  run() \x7b", "  \x7d", "\x7d", "let y = 2"] 0
    keepLines (· < 2) o.roots =
      [⟨.classDecl, "A", 0, some 0, [.leaf .attributeDecl "x" 1 (some 2)]⟩] := by
  decide +kernel

end Builder

end CodeOutline
