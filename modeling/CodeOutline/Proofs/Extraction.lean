import Mathlib.Data.List.Induction
import CodeOutline.Proofs.Progress

/-!
# Proofs.Extraction — nothing is lost, doubled or reordered on the way from lines to an outline

The declarations of some lines (`Classifier.declarations`) are what the classifier finds in each, with the
number of the line. Each line hands on at most its own declaration (`Builder.taken`), and the forest of
the build grows by it at the end. So in pre-order the outline lists some of the declarations in their
order, and all of them when no name is refused. `Tally` holds this together with the counts; it is kept
by every line (`Tally.step`) and so holds after any number of them (`tally_run`).

The order of the lines in pre-order then gives the order inside the forest: children after their parent,
siblings one after another.
-/

namespace CodeOutline

set_option autoImplicit false

open CodeOutline.Line

namespace Line.Classifier

variable (c : Classifier)

/-- What a classifier finds in some lines, each declaration with the number of its line. -/
def declarations (lines : List String) : List (Nat × Declaration) :=
  lines.zipIdx.filterMap fun l => (c.classify l.1).map (l.2, ·)

theorem declarations_concat (lines : List String) (line : String) :
    c.declarations (lines ++ [line]) =
      c.declarations lines ++ ((c.classify line).map (lines.length, ·)).toList := by
  simp only [declarations, List.zipIdx_append, List.filterMap_append]
  cases found : c.classify line <;> simp [found]

/-- A declaration with a number is what the classifier finds in the line with that number. -/
theorem mem_declarations_iff {lines : List String} {e : Nat × Declaration} :
    e ∈ c.declarations lines ↔ ∃ line, lines[e.1]? = some line ∧ c.classify line = some e.2 := by
  obtain ⟨i, d⟩ := e
  simp only [declarations, List.mem_filterMap, Prod.exists, List.mem_zipIdx_iff_getElem?,
    Option.map_eq_some_iff, Prod.mk.injEq]
  constructor
  · rintro ⟨line, i, at_i, d, found, rfl, rfl⟩
    exact ⟨line, at_i, found⟩
  · rintro ⟨line, at_i, found⟩
    exact ⟨line, i, at_i, d, found, rfl, rfl⟩

theorem length_declarations (lines : List String) :
    (c.declarations lines).length = lines.countP fun line => (c.classify line).isSome := by
  induction lines using List.reverseRecOn with
  | nil => rfl
  | append_singleton lines line ih =>
      rw [c.declarations_concat, List.length_append, List.countP_append, ih]
      cases found : c.classify line <;> simp [found]

theorem lt_length_of_mem_declarations {lines : List String} {e : Nat × Declaration}
    (member : e ∈ c.declarations lines) : e.1 < lines.length := by
  induction lines using List.reverseRecOn with
  | nil => simp [declarations] at member
  | append_singleton lines line ih =>
      rw [c.declarations_concat, List.mem_append] at member
      rw [List.length_append, List.length_singleton]
      rcases member with earlier | last
      · exact Nat.lt_succ_of_lt (ih earlier)
      · rw [Builder.fst_of_mem_numbered last]
        exact Nat.lt_succ_self _

/-- One declaration a line, in the order of the lines. -/
theorem declarations_increasing (lines : List String) :
    (c.declarations lines).Pairwise (·.1 < ·.1) := by
  induction lines using List.reverseRecOn with
  | nil => exact .nil
  | append_singleton lines line ih =>
      rw [c.declarations_concat, List.pairwise_append]
      refine ⟨ih, ?_, ?_⟩
      · cases found : c.classify line <;> simp
      · intro e earlier e' last
        rw [Builder.fst_of_mem_numbered last]
        exact c.lt_length_of_mem_declarations earlier

end Line.Classifier

namespace Builder

variable (b : Builder)

/-- What a build has listed and counted after some lines. -/
structure Tally (lines : List String) (p : Progress) : Prop where
  scanned : p.stats.linesScanned = lines.length
  listed : (Forest.entries p.forest).Sublist (b.classifier.declarations lines)
  counted : p.stats.nodes = (Forest.entries p.forest).length
  balanced : p.stats.nodes + p.stats.duplicatesDropped = (b.classifier.declarations lines).length
  kept : b.duplicates = .keep → p.stats.duplicatesDropped = 0

/-- A line hands on its own declaration or nothing. -/
theorem taken_sublist (p : Progress) (line : String) :
    (b.taken p line).toList.Sublist
      ((b.classifier.classify line).map (p.stats.linesScanned, ·)).toList := by
  unfold taken
  cases b.classifier.classify line with
  | none => exact .slnil
  | some d => cases b.refuses p d.name <;> simp

/-- When repeated names are kept, a line hands on its declaration. -/
theorem taken_of_keep (keep : b.duplicates = .keep) (p : Progress) (line : String) :
    b.taken p line = (b.classifier.classify line).map (p.stats.linesScanned, ·) := by
  unfold taken refuses
  cases b.classifier.classify line <;> simp [keep]

variable {b}

theorem Tally.step {lines : List String} {p : Progress} (tally : b.Tally lines p) (line : String) :
    b.Tally (lines ++ [line]) (b.step p line) := by
  obtain ⟨scanned, nodes, dropped⟩ := b.stats_step p line
  have found := b.taken_sublist p line
  rw [tally.scanned] at found
  refine ⟨?_, ?_, ?_, ?_, ?_⟩
  · rw [scanned, tally.scanned, List.length_append, List.length_singleton]
  · rw [b.entries_forest_step, b.classifier.declarations_concat]
    exact tally.listed.append found
  · rw [nodes, tally.counted, b.entries_forest_step, List.length_append]
  · have before := tally.balanced
    rw [b.classifier.declarations_concat, List.length_append, Option.toList_map, List.length_map]
    omega
  · intro keep
    have before := tally.kept keep
    rw [b.taken_of_keep keep, Option.toList_map, List.length_map] at dropped
    omega

theorem tally_run (lines : List String) : b.Tally lines (b.run lines) := by
  induction lines using List.reverseRecOn with
  | nil => exact ⟨rfl, .slnil, rfl, rfl, fun _ => rfl⟩
  | append_singleton lines line ih =>
      rw [b.run_concat]
      exact ih.step line

/-- With every name kept, the outline lists all declarations. -/
theorem Tally.entries_eq_of_keep {lines : List String} {p : Progress} (tally : b.Tally lines p)
    (keep : b.duplicates = .keep) : Forest.entries p.forest = b.classifier.declarations lines := by
  have none_dropped := tally.kept keep
  have all := tally.balanced
  rw [none_dropped, tally.counted, Nat.add_zero] at all
  exact tally.listed.eq_of_length all

theorem Tally.line_lt {lines : List String} {p : Progress} (tally : b.Tally lines p)
    {e : Nat × Declaration} (member : e ∈ Forest.entries p.forest) : e.1 < lines.length :=
  b.classifier.lt_length_of_mem_declarations (tally.listed.subset member)

/-- What a line adds has the number of the lines before it. -/
theorem Tally.line_of_taken {lines : List String} {p : Progress} (tally : b.Tally lines p) {line : String}
    {e : Nat × Declaration} (taken : e ∈ (b.taken p line).toList) : e.1 = lines.length :=
  (b.line_of_taken taken).trans tally.scanned

/-- The lines of an outline increase in pre-order. -/
theorem Tally.ordered {lines : List String} {p : Progress} (tally : b.Tally lines p) :
    Forest.Ordered p.forest :=
  Forest.ordered_iff_entries.2 ((b.classifier.declarations_increasing lines).sublist tally.listed)

/-- **Extraction loses, doubles and reorders nothing.** In pre-order an outline lists some of the
declarations in the order of their lines, at most one for a line; it lists all of them when repeated
names are kept. The counts are those of the lines read, of the nodes listed and of the declarations left
out. Children come after their parent, and siblings in the order of their lines. -/
theorem build_lists_declarations (b : Builder) (lines : List String) (revision : UInt64) :
    let o := b.build lines revision
    (Forest.entries o.roots).Sublist (b.classifier.declarations lines) ∧
      (Forest.entries o.roots).Pairwise (·.1 < ·.1) ∧
      (b.duplicates = .keep →
        Forest.entries o.roots = b.classifier.declarations lines ∧ o.stats.duplicatesDropped = 0) ∧
      o.stats.linesScanned = lines.length ∧
      o.stats.nodes = o.nodeCount ∧ o.nodeCount = (Forest.entries o.roots).length ∧
      o.stats.nodes + o.stats.duplicatesDropped =
        (lines.countP fun line => (b.classifier.classify line).isSome) ∧
      (∀ n ∈ Forest.nodes o.roots,
        (∀ child ∈ n.children, n.line < child.line) ∧ n.children.Pairwise (·.line < ·.line)) ∧
      o.roots.Pairwise (·.line < ·.line) := by
  intro o
  have tally : b.Tally lines (b.run lines) := tally_run lines
  have listed : o.nodeCount = (Forest.entries o.roots).length := by
    rw [Forest.entries, List.length_map, Forest.length_nodes]
    rfl
  refine ⟨tally.listed, Forest.ordered_iff_entries.1 tally.ordered,
    fun keep => ⟨tally.entries_eq_of_keep keep, tally.kept keep⟩, tally.scanned,
    tally.counted.trans listed.symm, listed, ?_, fun n member => tally.ordered.children member,
    tally.ordered.roots⟩
  exact tally.balanced.trans (b.classifier.length_declarations lines)

end Builder

end CodeOutline
