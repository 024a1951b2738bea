import CodeOutline.Proofs.EarlierLines
import CodeOutline.Proofs.Folding

/-!
# Proofs.AppendedRule — a rule added for a kind of leaf only adds leaves

The rule is asked last, so it speaks only on lines on which every other rule is silent; and where an earlier
rule found an empty name, the line declares nothing with the new rule either (`classify_withRule_cases`). On
the lines that were declared before, both classifiers say the same.

Two builds go through the same lines, the second with the rule added. They have the same scopes open after
every line, because what the rule adds opens none and closing looks at anchors alone (`Grown`). Their forests
differ by the nodes on the lines that the rule speaks on, in the middle of any list of siblings. On the
lineage these are entries that no other entry stands under, and without them it is the lineage of the first
build (`Grown.step`).
-/

namespace CodeOutline

set_option autoImplicit false

open CodeOutline.Line

namespace Line.Classifier

variable (c : Classifier) (kind : Kind) (find : String → Option Occurrence)

/-- With one more rule a line is classified as before, or was silent and now declares what the rule is
for. -/
theorem classify_withRule_cases (line : String) :
    (c.withRule kind find).classify line = c.classify line ∨
      (c.classify line = none ∧
        ∃ d, (c.withRule kind find).classify line = some d ∧ d.kind = kind) := by
  unfold classify
  simp only [withRule, List.findSome?_append]
  cases decided : c.rules.findSome? fun r => (r.findInCode line).map (r.kind, ·) with
  | some found => exact .inl rfl
  | none =>
      cases added : Rule.findInCode ⟨kind, find⟩ line with
      | none => exact .inl (by simp [added])
      | some m =>
          by_cases unnamed : m.name.isEmpty
          · exact .inl (by simp [added, unnamed])
          · let d : Declaration := ⟨kind, m.name, columnFor c.column kind line m.start⟩
            exact .inr ⟨rfl, d, by simp [added, unnamed, d], rfl⟩

/-- What was declared before is declared as before. -/
theorem classify_withRule_of_some {line : String} {d : Declaration} (found : c.classify line = some d) :
    (c.withRule kind find).classify line = some d := by
  rcases c.classify_withRule_cases kind find line with same | ⟨silent, -⟩
  · exact same.trans found
  · simp [silent] at found

def declaresAt (lines : List String) (i : Nat) : Bool := (lines[i]?.bind c.classify).isSome

theorem declaresAt_length (lines : List String) (line : String) (later : List String) :
    c.declaresAt (lines ++ line :: later) lines.length = (c.classify line).isSome := by
  simp [declaresAt]

end Line.Classifier

namespace Builder

open Forest

/-- Two builds with the same scopes open, `q` with more leaves than `p`: those on the lines that are not
kept. -/
structure Grown (keep : Nat → Bool) (p q : Progress) : Prop where
  marks : q.marks = p.marks
  depth : q.depth = p.depth
  scanned : q.stats.linesScanned = p.stats.linesScanned
  opened : ∀ e ∈ p.path, keep e.1 = true
  kept : keptLineage keep (lineage Node.entry [] q.forest) = lineage Node.entry [] p.forest

variable {keep : Nat → Bool} {b b' : Builder} {p q : Progress} {line : String}

theorem Grown.path (grown : Grown keep p q) : q.path = p.path := by
  rw [Progress.path, Progress.path, grown.marks]

/-- Scopes are opened and closed alike by builders that nest alike, as long as they take in the same
scopes. -/
theorem step_marks_eq (nesting : b'.nesting = b.nesting) (depth : q.depth = p.depth)
    (marks : (b'.declared q line).marks = (b.declared p line).marks) :
    (b'.step q line).marks = (b.step p line).marks ∧ (b'.step q line).depth = (b.step p line).depth := by
  cases way : b.nesting with
  | braceDepth =>
      obtain ⟨left, left_marks⟩ := b.step_of_braceDepth way p line
      obtain ⟨right, right_marks⟩ := b'.step_of_braceDepth (nesting.trans way) q line
      rw [left, left_marks, right, right_marks, depth, marks]
      exact ⟨rfl, rfl⟩
  | indentation =>
      obtain ⟨left, left_marks⟩ := b.step_of_indentation way p line
      obtain ⟨right, right_marks⟩ := b'.step_of_indentation (nesting.trans way) q line
      rw [left, left_marks, right, right_marks, depth, marks]
      exact ⟨rfl, rfl⟩

/-- **A line adds the same to both, or a leaf to the second alone.** The open scopes and the lineage both grow
by what is taken in. -/
theorem Grown.step (grown : Grown keep p q) (nesting : b'.nesting = b.nesting)
    (all : b.duplicates = .keep) (all' : b'.duplicates = .keep)
    (own : keep p.stats.linesScanned = (b.classifier.classify line).isSome)
    (found : b'.classifier.classify line = b.classifier.classify line ∨
      (b.classifier.classify line = none ∧
        ∃ d, b'.classifier.classify line = some d ∧ d.kind.isScope = false)) :
    Grown keep (b.step p line) (b'.step q line) := by
  have anchor : b'.anchor q line = b.anchor p line := by
    simp only [Builder.anchor, nesting, grown.depth]
  have number : ∀ e ∈ (b.taken p line).toList, keep e.1 = true := by
    intro e member
    rw [b.taken_of_keep all, Option.toList_map] at member
    obtain ⟨d, declared, rfl⟩ := List.mem_map.1 member
    rw [own, Option.mem_toList.1 declared]
    rfl
  have taken : ((b'.taken q line).toList.filter (·.2.kind.isScope)).map (·, b'.anchor q line) =
        ((b.taken p line).toList.filter (·.2.kind.isScope)).map (·, b.anchor p line) ∧
      keptLineage keep ((b'.taken q line).map (q.path, ·)).toList =
        ((b.taken p line).map (p.path, ·)).toList := by
    rw [b'.taken_of_keep all', grown.scanned, grown.path, anchor]
    rcases found with same | ⟨silent, d, leaf, no_scope⟩
    · rw [same, ← b.taken_of_keep all]
      refine ⟨rfl, keptLineage_eq_self ?_ ?_⟩
      · intro a member
        rw [Option.toList_map] at member
        obtain ⟨e, taken, rfl⟩ := List.mem_map.1 member
        exact number e taken
      · intro a member e above
        rw [Option.toList_map] at member
        obtain ⟨_, _, rfl⟩ := List.mem_map.1 member
        exact grown.opened e above
    · rw [leaf, b.taken_of_none silent]
      constructor
      · simp [no_scope]
      · apply keptLineage_eq_nil
        intro a member
        simp only [Option.map_some, Option.toList_some, List.mem_singleton] at member
        rw [member, own, silent]
        rfl
  have declared : (b'.declared q line).marks = (b.declared p line).marks := by
    rw [b'.marks_declared, b.marks_declared, taken.1, grown.marks]
  obtain ⟨marks, depth⟩ := step_marks_eq nesting grown.depth declared
  refine ⟨marks, depth, ?_, ?_, ?_⟩
  · rw [(b'.stats_step q line).1, (b.stats_step p line).1, grown.scanned]
  · intro e member
    rcases b.mem_path_step member with earlier | ⟨taken, -⟩
    · exact grown.opened e earlier
    · exact number e taken
  · rw [b'.lineage_forest_step, b.lineage_forest_step, keptLineage_append, grown.kept, taken.2]

section Rule

variable (c : Classifier) {kind : Kind} (find : String → Option Occurrence) (nesting : Nesting)

abbrev keeping (c : Classifier) (nesting : Nesting) : Builder := ⟨c, nesting, .keep⟩

theorem grown_run (leaf : kind.isScope = false) (lines later : List String) :
    Grown (c.declaresAt (lines ++ later)) ((keeping c nesting).run lines)
      ((keeping (c.withRule kind find) nesting).run lines) := by
  induction lines using List.reverseRecOn generalizing later with
  | nil => exact ⟨rfl, rfl, rfl, nofun, rfl⟩
  | append_singleton lines line ih =>
      have own : c.declaresAt (lines ++ line :: later) ((keeping c nesting).run lines).stats.linesScanned =
          (c.classify line).isSome := by
        rw [(tally_run lines).scanned, c.declaresAt_length]
      have found : (c.withRule kind find).classify line = c.classify line ∨
          (c.classify line = none ∧
            ∃ d, (c.withRule kind find).classify line = some d ∧ d.kind.isScope = false) := by
        rcases c.classify_withRule_cases kind find line with same | ⟨silent, d, added, sort⟩
        · exact .inl same
        · exact .inr ⟨silent, d, added, by rw [sort, leaf]⟩
      rw [List.append_assoc, List.singleton_append, run_concat, run_concat]
      exact (ih (line :: later)).step rfl rfl rfl own found

/-- A node on a line that was silent before is of the kind of the rule. -/
theorem kind_of_silent {lines : List String} {revision : UInt64} {n : Node}
    (member : n ∈ nodes ((keeping (c.withRule kind find) nesting).build lines revision).roots)
    (silent : c.declaresAt lines n.line = false) : n.kind = kind := by
  have tally : (keeping (c.withRule kind find) nesting).Tally lines
      ((keeping (c.withRule kind find) nesting).run lines) := tally_run lines
  have listed := tally.listed.subset (List.mem_map_of_mem member)
  obtain ⟨line, here, found⟩ := (Classifier.mem_declarations_iff _).1 listed
  have here : lines[n.line]? = some line := here
  have unknown : c.classify line = none := by
    simpa [Classifier.declaresAt, here] using silent
  rcases c.classify_withRule_cases kind find line with same | ⟨-, d, added, sort⟩
  · rw [same, unknown] at found
    cases found
  · obtain rfl := Option.some.inj (added.symm.trans found)
    exact sort

/-- **A rule added for a leaf only adds leaves.** Every line that declared something declares the same as
before. However the outline nests, without the nodes on the lines that declared nothing before it is the
outline that was built without the rule; those nodes hold nothing, and as many lines are read and as many
scopes are left open. -/
theorem build_withRule_keepLines (leaf : kind.isScope = false) :
    (∀ line d, c.classify line = some d → (c.withRule kind find).classify line = some d) ∧
      ∀ (lines : List String) (revision : UInt64),
        let old := Builder.build ⟨c, nesting, .keep⟩ lines revision
        let new := Builder.build ⟨c.withRule kind find, nesting, .keep⟩ lines revision
        keepLines (c.declaresAt lines) new.roots = old.roots ∧
          (∀ n ∈ nodes new.roots, c.declaresAt lines n.line = false → n.children = []) ∧
          new.stats.linesScanned = old.stats.linesScanned ∧
          new.stats.unclosedScopes = old.stats.unclosedScopes := by
  refine ⟨fun line d found => c.classify_withRule_of_some kind find found, ?_⟩
  intro lines revision old new
  have grown := grown_run c find nesting leaf lines []
  rw [List.append_nil] at grown
  have pruned := lineage_keepLines (c.declaresAt lines) []
    ((keeping (c.withRule kind find) nesting).run lines).forest
  refine ⟨eq_of_lineage_eq (pruned.trans grown.kept), ?_, grown.scanned, ?_⟩
  · intro n member silent
    by_contra holds
    have scope := heldByScopes_build _ lines revision n member holds
    rw [kind_of_silent c find nesting member silent, leaf] at scope
    cases scope
  · have open_scopes := congrArg List.length grown.marks
    rw [Progress.marks, Progress.marks, List.length_map, List.length_map] at open_scopes
    exact open_scopes

/-- A rule for signals, on a class with a signal, an attribute and another signal after it. -/
theorem build_withRule_keepLines_of_signals :
    let find : String → Option Occurrence := fun line =>
      let text := line.toList.dropWhile (· = ' ')
      if text.take 7 = "signal ".toList then some ⟨String.ofList (text.drop 7), 0⟩ else none
    let c : Classifier := .standard .omit
    let lines := ["class A \x7b", "  signal done", "  x = 1", "\x7d", "signal stop"]
    let new := Builder.build ⟨c.withRule .eventDecl find, .braceDepth, .keep⟩ lines 0
    new.roots =
        [⟨.classDecl, "A", 0, none, [.leaf .eventDecl "done" 1 none, .leaf .attributeDecl "x" 2 none]⟩,
          .leaf .eventDecl "stop" 4 none] ∧
      keepLines (c.declaresAt lines) new.roots = (Builder.build ⟨c, .braceDepth, .keep⟩ lines 0).roots ∧
      new.stats.unclosedScopes = (Builder.build ⟨c, .braceDepth, .keep⟩ lines 0).stats.unclosedScopes := by
  intro find c lines new
  obtain ⟨-, built⟩ := @build_withRule_keepLines c .eventDecl find .braceDepth rfl
  obtain ⟨kept, -, -, unclosed⟩ := built lines 0
  exact ⟨by decide +kernel, kept, unclosed⟩

end Rule

end Builder

end CodeOutline
