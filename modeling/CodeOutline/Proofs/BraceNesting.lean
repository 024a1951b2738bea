import Mathlib.Algebra.Ring.Int.Defs
import CodeOutline.Proofs.Extraction

/-!
# Proofs.BraceNesting — nesting by braces is nesting of braces

`depthAt lines k` is the number of `{` less the number of `}` in the first `k` lines. A line `i` encloses
the place before line `j` when the depth stays above what it was before line `i` all the way from line `i`
to there (`Encloses`). The builder knows none of this: it has a stack, looks at the top of it, and hangs a
scope into its parent when it takes it off. That the scopes a node ends up in are those whose lines
enclose its line rests on three facts about the stack (`Nested`), which each line keeps:

* the anchor of an open scope is the depth before its line;
* the anchors increase strictly inwards and stay below the depth, so closing from the top as long as the
  anchor is reached closes all the scopes whose anchor is reached;
* the open scopes are all the scopes listed so far that enclose the end.

Depths may be negative, jump by any number of braces in a line, and never come back.
-/

namespace CodeOutline

set_option autoImplicit false

open CodeOutline.Line

def depthAt (lines : List String) (k : Nat) : Int := ((lines.take k).map braceDelta).sum

/-- From line `i` on, the depth stays above what it was before that line, up to the place before line
`j`. -/
def Encloses (lines : List String) (i j : Nat) : Prop :=
  ∀ k, i ≤ k → k < j → depthAt lines i < depthAt lines (k + 1)

instance (lines : List String) (i j : Nat) : Decidable (Encloses lines i j) :=
  decidable_of_iff (∀ k < j, i ≤ k → depthAt lines i < depthAt lines (k + 1))
    ⟨fun h k hi hj => h k hj hi, fun h k hj hi => h k hi hj⟩

section Depth

variable {lines : List String} (line : String)

theorem depthAt_concat_of_le {k : Nat} (le : k ≤ lines.length) :
    depthAt (lines ++ [line]) k = depthAt lines k := by
  rw [depthAt, depthAt, List.take_append_of_le_length le]

theorem depthAt_concat_length :
    depthAt (lines ++ [line]) (lines.length + 1) = depthAt lines lines.length + braceDelta line := by
  have all : (lines ++ [line]).take (lines.length + 1) = lines ++ [line] :=
    List.take_of_length_le (by simp)
  rw [depthAt, depthAt, all, List.take_length]
  simp

/-- Later lines do not matter to what encloses a place before them. -/
theorem encloses_concat_of_le {i j : Nat} (le : j ≤ lines.length) :
    Encloses (lines ++ [line]) i j ↔ Encloses lines i j := by
  unfold Encloses
  refine forall_congr' fun k => forall_congr' fun from_i => forall_congr' fun below_j => ?_
  rw [depthAt_concat_of_le line (by omega), depthAt_concat_of_le line (by omega)]

theorem encloses_succ_iff {i j : Nat} (le : i ≤ j) :
    Encloses lines i (j + 1) ↔ Encloses lines i j ∧ depthAt lines i < depthAt lines (j + 1) := by
  constructor
  · intro all
    exact ⟨fun k from_i below_j => all k from_i (by omega), all j le (by omega)⟩
  · rintro ⟨before, last⟩ k from_i below
    rcases Nat.lt_succ_iff_lt_or_eq.1 below with earlier | rfl
    · exact before k from_i earlier
    · exact last

end Depth

/-- On a stack whose anchors increase inwards, closing from the top as long as the depth has come back
to the anchor leaves the scopes it has not come back to. -/
theorem dropWhile_reached_eq_filter {α : Type} {marks : List (α × Int)}
    (nested : marks.Pairwise fun inner outer => outer.2 < inner.2) (depth : Int) :
    marks.dropWhile (depth ≤ ·.2) = marks.filter (·.2 < depth) := by
  induction marks with
  | nil => rfl
  | cons top outer ih =>
      rw [List.pairwise_cons] at nested
      by_cases reached : depth ≤ top.2
      · have closed : ¬ top.2 < depth := by omega
        simp [reached, closed, ih nested.2]
      · have remains : top.2 < depth := by omega
        have others : outer.filter (·.2 < depth) = outer := by
          apply List.filter_eq_self.2
          intro m member
          have above := nested.1 m member
          exact decide_eq_true (by omega)
        simp [reached, remains, others]

/-- The scopes among some entries whose lines enclose the place before line `j`. -/
def enclosing (lines : List String) (j : Nat) (es : List (Nat × Declaration)) :
    List (Nat × Declaration) :=
  es.filter fun e => e.2.kind.isScope ∧ e.1 < j ∧ Encloses lines e.1 j

section Enclosing

variable {lines : List String} (line : String) {es late : List (Nat × Declaration)}

/-- Neither a later line nor what it declares encloses a place before it. -/
theorem enclosing_concat {j : Nat} (le : j ≤ lines.length) (after : ∀ e ∈ late, j ≤ e.1) :
    enclosing (lines ++ [line]) j (es ++ late) = enclosing lines j es := by
  have outside : enclosing (lines ++ [line]) j late = [] := by
    apply List.filter_eq_nil_iff.2
    intro e member
    have later := after e member
    simp only [decide_eq_true_eq]
    omega
  rw [enclosing, List.filter_append]
  rw [enclosing] at outside
  rw [outside, List.append_nil, enclosing]
  apply List.filter_congr
  intro e _
  simp only [encloses_concat_of_le line le]

/-- The scopes that enclose the end after one more line are those that did before it, and its own,
less those whose depth it comes back to. -/
theorem enclosing_length_concat (before : ∀ e ∈ es, e.1 < lines.length)
    (last : ∀ e ∈ late, e.1 = lines.length) :
    enclosing (lines ++ [line]) (lines.length + 1) (es ++ late) =
      (enclosing lines lines.length es ++ late.filter (·.2.kind.isScope)).filter fun e =>
        depthAt (lines ++ [line]) e.1 < depthAt (lines ++ [line]) (lines.length + 1) := by
  rw [enclosing, enclosing, List.filter_append, List.filter_append, List.filter_filter,
    List.filter_filter]
  congr 1
  · apply List.filter_congr
    intro e member
    have lt := before e member
    rw [Bool.eq_iff_iff]
    simp only [Bool.and_eq_true, decide_eq_true_eq]
    rw [encloses_succ_iff (Nat.le_of_lt lt), encloses_concat_of_le line (Nat.le_refl _)]
    constructor
    · rintro ⟨scope, -, encloses, above⟩
      exact ⟨above, scope, lt, encloses⟩
    · rintro ⟨above, scope, -, encloses⟩
      exact ⟨scope, by omega, encloses, above⟩
  · apply List.filter_congr
    intro e member
    have eq := last e member
    rw [Bool.eq_iff_iff]
    simp only [Bool.and_eq_true, decide_eq_true_eq]
    rw [encloses_succ_iff (Nat.le_of_eq eq)]
    constructor
    · rintro ⟨scope, -, -, above⟩
      exact ⟨above, scope⟩
    · rintro ⟨above, scope⟩
      exact ⟨scope, by omega, fun k from_e below => by omega, above⟩

end Enclosing

namespace Builder

/-- What the stack of a build that counts braces is like after some lines. -/
structure Nested (lines : List String) (p : Progress) : Prop where
  depth : p.depth = depthAt lines lines.length
  anchored : ∀ m ∈ p.marks, m.2 = depthAt lines m.1.1
  increasing : p.marks.Pairwise fun inner outer => outer.2 < inner.2
  below : ∀ m ∈ p.marks, m.2 < p.depth
  opened : p.path = enclosing lines lines.length (Forest.entries p.forest)
  placed : ∀ above e, (above, e) ∈ Forest.lineage Node.entry [] p.forest →
    above = enclosing lines e.1 (Forest.entries p.forest)

theorem Nested.mem_entries {lines : List String} {p : Progress} (nested : Nested lines p)
    {m : (Nat × Declaration) × Int} (member : m ∈ p.marks) : m.1 ∈ Forest.entries p.forest := by
  have open_scope : m.1 ∈ p.path := by
    rw [Progress.path, List.mem_reverse]
    exact List.mem_map_of_mem member
  rw [nested.opened] at open_scope
  exact (List.mem_filter.1 open_scope).1

section Step

variable {b : Builder} {lines : List String} {p : Progress} (line : String)

/-- Once the declaration of a line is taken in, the anchors still increase inwards, and each is the
depth before its line. -/
theorem Nested.declared (nested : Nested lines p) (brace : b.nesting = .braceDepth)
    (tally : b.Tally lines p) :
    (∀ m ∈ (b.declared p line).marks, m.2 = depthAt (lines ++ [line]) m.1.1) ∧
      (b.declared p line).marks.Pairwise fun inner outer => outer.2 < inner.2 := by
  have anchor : b.anchor p line = p.depth := by simp [Builder.anchor, brace]
  rw [b.marks_declared, anchor]
  constructor
  · intro m member
    rcases List.mem_append.1 member with own | earlier
    · obtain ⟨e, taken, rfl⟩ := List.mem_map.1 own
      rw [tally.line_of_taken (List.mem_filter.1 taken).1, depthAt_concat_of_le line (Nat.le_refl _), nested.depth]
    · have lt := tally.line_lt (nested.mem_entries earlier)
      rw [nested.anchored m earlier, depthAt_concat_of_le line (Nat.le_of_lt lt)]
  · rw [List.pairwise_append]
    refine ⟨?_, nested.increasing, ?_⟩
    · cases b.taken p line with
      | none => exact .nil
      | some e => by_cases scope : e.2.kind.isScope <;> simp [scope]
    · intro own member m earlier
      obtain ⟨e, -, rfl⟩ := List.mem_map.1 member
      exact nested.below m earlier

theorem Nested.step (nested : Nested lines p) (brace : b.nesting = .braceDepth)
    (tally : b.Tally lines p) : Nested (lines ++ [line]) (b.step p line) := by
  obtain ⟨anchored, increasing⟩ := nested.declared line brace tally
  obtain ⟨counted, marks⟩ := b.step_of_braceDepth brace p line
  have depth : p.depth + braceDelta line = depthAt (lines ++ [line]) (lines.length + 1) := by
    rw [depthAt_concat_length, nested.depth]
  rw [depth] at counted marks
  rw [dropWhile_reached_eq_filter increasing] at marks
  have length : (lines ++ [line]).length = lines.length + 1 := by simp
  have on_line : ∀ e ∈ (b.taken p line).toList, e.1 = lines.length := fun e => tally.line_of_taken
  refine ⟨by rw [counted, length], ?_, ?_, ?_, ?_, ?_⟩
  · intro m member
    rw [marks] at member
    exact anchored m (List.mem_filter.1 member).1
  · rw [marks]
    exact increasing.filter _
  · intro m member
    rw [marks] at member
    rw [counted]
    simpa using (List.mem_filter.1 member).2
  · rw [length, b.entries_forest_step, enclosing_length_concat line (fun e => tally.line_lt) on_line,
      ← nested.opened, ← b.path_declared, Progress.path, Progress.path, marks, List.filter_reverse,
      List.filter_map]
    congr 2
    apply List.filter_congr
    intro m member
    simp only [anchored m member, Function.comp_apply]
  · intro above e member
    rw [b.entries_forest_step]
    rcases b.mem_lineage_step member with earlier | ⟨rfl, taken⟩
    · have lt := tally.line_lt (Forest.mem_entries_of_mem_lineage earlier)
      rw [enclosing_concat line (Nat.le_of_lt lt) fun e' taken => by rw [on_line e' taken]; omega]
      exact nested.placed above e earlier
    · rw [on_line e taken, enclosing_concat line (Nat.le_refl _) fun e taken =>
        Nat.le_of_eq (on_line e taken).symm]
      exact nested.opened

theorem nested_run (brace : b.nesting = .braceDepth) (lines : List String) :
    Nested lines (b.run lines) := by
  induction lines using List.reverseRecOn with
  | nil => exact ⟨rfl, nofun, .nil, nofun, rfl, nofun⟩
  | append_singleton lines line ih =>
      rw [b.run_concat]
      exact ih.step line brace (tally_run lines)

end Step

/-! ## The nodes themselves -/

section Nodes

variable {lines : List String} {p : Progress}

/-- The nodes that a node lies in are the scopes whose lines enclose its line. -/
theorem Nested.above_eq (nested : Nested lines p) (ordered : Forest.Ordered p.forest)
    {above : List Node} {n : Node} (member : (above, n) ∈ Forest.lineage id [] p.forest) :
    above = (Forest.nodes p.forest).filter fun s =>
      s.kind.isScope ∧ s.line < n.line ∧ Encloses lines s.line n.line :=
  ordered.above_eq_filter nested.placed member

/-- Only a scope holds anything. -/
theorem Nested.children_eq_nil (nested : Nested lines p) (ordered : Forest.Ordered p.forest)
    {n : Node} (member : n ∈ Forest.nodes p.forest) (leaf : n.kind.isScope = false) :
    n.children = [] := by
  apply List.eq_nil_iff_forall_not_mem.2
  intro child inside
  obtain ⟨above, placed⟩ := Forest.exists_mem_lineage member
  have around := nested.above_eq ordered (Forest.mem_lineage_child placed inside)
  have scope : n ∈ above ++ [n] := by simp
  rw [around] at scope
  simp [leaf] at scope

theorem Nested.length_scopes (nested : Nested lines p) {b : Builder} (tally : b.Tally lines p) :
    p.scopes.length =
      (Forest.nodes p.forest).countP fun s => s.kind.isScope ∧ Encloses lines s.line lines.length := by
  have length : p.scopes.length = p.path.length := by simp [Progress.path, Progress.marks]
  rw [length, nested.opened, enclosing, ← List.countP_eq_length_filter, Forest.entries,
    List.countP_map]
  apply List.countP_congr
  intro n member
  have lt : n.line < lines.length := tally.line_lt (List.mem_map_of_mem member)
  simp only [Function.comp_apply, decide_eq_true_eq]
  constructor
  · rintro ⟨scope, -, encloses⟩
    exact ⟨scope, encloses⟩
  · rintro ⟨scope, encloses⟩
    exact ⟨scope, lt, encloses⟩

end Nodes

/-- **Nesting by braces is nesting of braces.** No two nodes are on one line, and every node has its
place. The nodes that it lies in, outermost first, are the scopes on earlier lines that enclose its line,
in the order of their lines; the last of them holds the node, and without any the node is a root. The
scopes counted as unclosed are those that enclose the end. What is no scope holds nothing. -/
theorem build_nests_by_braces (c : Classifier) (duplicates : Duplicates) (lines : List String)
    (revision : UInt64) :
    let o := Builder.build ⟨c, .braceDepth, duplicates⟩ lines revision
    (Forest.nodes o.roots).Pairwise (·.line < ·.line) ∧
      (∀ n ∈ Forest.nodes o.roots, ∃ above, (above, n) ∈ Forest.lineage id [] o.roots) ∧
      (∀ above n, (above, n) ∈ Forest.lineage id [] o.roots →
        above = ((Forest.nodes o.roots).filter fun s =>
          s.kind.isScope ∧ s.line < n.line ∧ Encloses lines s.line n.line) ∧
        above.Pairwise (·.line < ·.line) ∧
        (above = [] → n ∈ o.roots) ∧
        (∀ outer parent, above = outer ++ [parent] → n ∈ parent.children)) ∧
      o.stats.unclosedScopes = ((Forest.nodes o.roots).countP fun s =>
        s.kind.isScope ∧ Encloses lines s.line lines.length) ∧
      (∀ n ∈ Forest.nodes o.roots, n.kind.isScope = false → n.children = []) := by
  intro o
  let b : Builder := ⟨c, .braceDepth, duplicates⟩
  have tally : b.Tally lines (b.run lines) := tally_run lines
  have nested : Nested lines (b.run lines) := nested_run rfl lines
  have ordered : Forest.Ordered o.roots := tally.ordered
  refine ⟨ordered, fun n member => Forest.exists_mem_lineage member, ?_,
    nested.length_scopes tally, fun n member => nested.children_eq_nil ordered member⟩
  intro above n member
  have around := nested.above_eq ordered member
  refine ⟨around, ?_, ?_, ?_⟩
  · rw [around]
    exact List.Pairwise.filter _ ordered
  · intro root
    obtain ⟨-, inside⟩ | ⟨outer, parent, rfl, -⟩ := Forest.mem_lineage_cases member
    · exact inside
    · simp at root
  · intro outer parent last
    obtain ⟨rfl, -⟩ | ⟨outer', parent', rfl, -, inside⟩ := Forest.mem_lineage_cases member
    · simp at last
    · obtain ⟨-, same⟩ := List.append_inj' last rfl
      cases same
      exact inside

end Builder

end CodeOutline
