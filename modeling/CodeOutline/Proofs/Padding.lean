import CodeOutline.Proofs.Extraction
import CodeOutline.Proofs.Lockstep
import CodeOutline.Proofs.PaddedRules

/-!
# Proofs.Padding — blanks around the lines of a text change nothing but columns

A line with blanks around it declares what the line itself declares (`classify_around`): each rule finds the
same name in it, in code or in a literal as before, and a column that is read off the line grows by the
characters put before it, however many bytes they take. It opens and closes as many braces, so the two builds
stay abreast (`Abreast`): the same nodes up to their columns, the same depth, and the same anchors. By
indentation this would fail, since there the blanks before a line are what it is nested by.
-/

namespace CodeOutline

set_option autoImplicit false

open CodeOutline.Text CodeOutline.Line

/-- The column of a declaration on a line that is moved to the right: a column read off the line moves with
it. -/
def ColumnPolicy.shifted (policy : ColumnPolicy) (n : Nat) (column : Option Nat) : Option Nat :=
  match policy with
  | .matchStart | .firstNonBlank => column.map (· + n)
  | .fixed _ | .omit => column

namespace Line

/-! ## What a line declares -/

section Declared

variable (p : Padding) {line : String}

theorem Padding.inLiteral_around (line : String) (n : Nat) :
    inLiteral (p.around line) (byteSize p.left.toList + n) = inLiteral line n := by
  have code : Region.code.Proper := trivial
  simp only [inLiteral, p.toList_around, List.append_assoc, covered_blank_append p.blankLeft]
  exact covered_append_blank code p.blankRight n

theorem Padding.indentOf_around (ink : ¬ Blank line.toList) :
    indentOf (p.around line) = indentOf line + p.left.length := by
  simp only [indentOf, indent, p.takeWhile_around ink, List.length_append, String.length_toList]
  omega

theorem Padding.columnAt_around {before rest : List Char} (cut : line.toList = before ++ rest) :
    columnAt (p.around line) (byteSize p.left.toList + byteSize before) =
      columnAt line (byteSize before) + p.left.length := by
  have padded : (p.around line).toList = (p.left.toList ++ before) ++ (rest ++ p.right.toList) := by
    simp only [p.toList_around, cut, List.append_assoc]
  have start : charsBefore (byteSize p.left.toList + byteSize before) (p.around line).toList =
      some (p.left.toList ++ before).length := by
    rw [padded, ← byteSize_append]
    exact charsBefore_byteSize _ _
  simp only [columnAt, start, cut, charsBefore_byteSize, Option.getD_some, List.length_append,
    String.length_toList]
  omega

/-- A declaration starts in code on the padded line if it starts in code on the line itself. -/
theorem findInCode_around {r : Rule} (follows : r.Follows) (line : String) :
    r.findInCode (p.around line) = (r.findInCode line).map (.moved r.kind p) := by
  simp only [Rule.findInCode, follows.moves]
  cases found : r.find line with
  | none => rfl
  | some m =>
      have covered : inLiteral (p.around line) (m.moved r.kind p).start = inLiteral line m.start := by
        obtain ⟨before, rest, -, start, first⟩ := follows.starts line m found
        by_cases kind : r.kind = .attributeDecl
        · simp [Occurrence.moved, kind, start, first kind, byteSize, inLiteral, covered]
        · simp only [Occurrence.moved, if_neg kind, p.inLiteral_around]
      simp only [Option.map_some, Option.filter_some, covered]
      split <;> rfl

/-- A rule that blanks around the line do not disturb finds nothing in a blank line. -/
theorem Rule.Follows.not_blank {r : Rule} (follows : r.Follows) {m : Occurrence}
    (found : r.find line = some m) : ¬ Blank line.toList := by
  intro blank
  let p : Padding := ⟨line, "", blank, nofun⟩
  have around : p.around "" = line := by simp [Padding.around, p]
  have moved := follows.moves p ""
  rw [around, found, follows.nothing] at moved
  cases moved

theorem columnFor_around {r : Rule} (follows : r.Follows) {m : Occurrence} (found : r.find line = some m)
    (policy : ColumnPolicy) :
    columnFor policy r.kind (p.around line) (m.moved r.kind p).start =
      policy.shifted p.left.length (columnFor policy r.kind line m.start) := by
  have indented := p.indentOf_around (follows.not_blank found)
  obtain ⟨before, rest, cut, start, -⟩ := follows.starts line m found
  have placed := p.columnAt_around cut
  cases policy with
  | matchStart =>
      cases kind : r.kind <;>
        simp [columnFor, ColumnPolicy.shifted, Occurrence.moved, indented, start, placed]
  | firstNonBlank => simp [columnFor, ColumnPolicy.shifted, indented]
  | _ => rfl

/-- **A padded line declares what the line declares,** with the column moved. -/
theorem classify_around {c : Classifier} (follows : ∀ r ∈ c.rules, r.Follows) (line : String) :
    c.classify (p.around line) = (c.classify line).map fun d =>
      { d with column := c.column.shifted p.left.length d.column } := by
  have decides : ∀ rules : List Rule, (∀ r ∈ rules, r.Follows) →
      (rules.findSome? fun r => (r.findInCode (p.around line)).map (r.kind, ·)) =
        (rules.findSome? fun r => (r.findInCode line).map (r.kind, ·)).map fun x =>
          (x.1, x.2.moved x.1 p) := by
    intro rules
    induction rules with
    | nil => intro _; rfl
    | cons r rules ih =>
        intro follows
        have later := ih fun r' member => follows r' (List.mem_cons_of_mem _ member)
        simp only [List.findSome?_cons, findInCode_around p (follows r List.mem_cons_self), later]
        cases r.findInCode line <;> rfl
  simp only [Classifier.classify, decides c.rules follows]
  cases decided : c.rules.findSome? fun r => (r.findInCode line).map (r.kind, ·) with
  | none => rfl
  | some x =>
      obtain ⟨r, member, decided⟩ := List.exists_of_findSome?_eq_some decided
      obtain ⟨m, found, rfl⟩ := Option.map_eq_some_iff.1 decided
      obtain ⟨found, -⟩ := Option.filter_eq_some_iff.1 found
      have name : (m.moved r.kind p).name = m.name := by
        unfold Occurrence.moved
        split <;> rfl
      simp only [Option.map_some, name, columnFor_around p (follows r member) found]
      split <;> rfl

/-- A wide blank takes three bytes and counts as one character. -/
example :
    let p : Padding := ⟨"\u3000\t", "\r", by decide, by decide⟩
    classify (p.around "let x") = some ⟨.variableDecl, "x", some 2⟩ := by decide +kernel

end Declared

end Line

/-! ## A whole text -/

theorem Line.Padding.braceDelta_around (p : Padding) (line : String) :
    braceDelta (p.around line) = braceDelta line := by
  have open_left := p.blankLeft.count_eq_zero (c := '{') (by decide)
  have open_right := p.blankRight.count_eq_zero (c := '{') (by decide)
  have close_left := p.blankLeft.count_eq_zero (c := '}') (by decide)
  have close_right := p.blankRight.count_eq_zero (c := '}') (by decide)
  simp [braceDelta_eq_count, p.toList_around, open_left, open_right, close_left, close_right]

/-- The column, on a text with blanks around its lines, of what stands at a column of some line. -/
def paddedColumn (policy : ColumnPolicy) (lines : List (Padding × String)) (line : Nat)
    (column : Option Nat) : Option Nat :=
  policy.shifted ((lines[line]?.map (·.1.left.length)).getD 0) column

namespace Builder

open Progress

/-- Two builds that count braces, and have the same depth and the same stack of anchors. -/
structure Abreast (f : Nat → Option Nat → Option Nat) (p q : Progress) : Prop where
  alike : Alike f p q
  anchors : q.anchors = p.anchors
  depth : q.depth = p.depth

theorem Abreast.step {b : Builder} {f : Nat → Option Nat → Option Nat} {p q : Progress} {line line' : String}
    (abreast : Abreast f p q) (brace : b.nesting = .braceDepth) (delta : braceDelta line' = braceDelta line)
    (found : b.classifier.classify line' = (b.classifier.classify line).map fun d =>
      { d with column := f p.stats.linesScanned d.column }) :
    Abreast f (b.step p line) (b.step q line') := by
  have declared : Alike f (b.declared p line) (b.declared q line') := declared_alike abreast.alike rfl found
  have anchors : (b.declared q line').anchors = (b.declared p line).anchors := by
    have anchor : b.anchor q line' = b.anchor p line := by simp only [Builder.anchor, brace, abreast.depth]
    rw [anchors_declared, anchors_declared, opens_alike abreast.alike declared, anchor, abreast.anchors]
  have depth : (b.declared q line').depth + braceDelta line' = (b.declared p line).depth + braceDelta line := by
    rw [depth_declared, depth_declared, abreast.depth, delta]
  have counted := declared.counted ((b.declared p line).depth + braceDelta line)
    ((b.declared p line).depth + braceDelta line)
  have closed : Abreast f (b.close (b.declared p line) line) (b.close (b.declared q line') line') := by
    simp only [close, brace, depth]
    refine ⟨counted.leaveWhile anchors _, ?_, ?_⟩
    · rw [anchors_leaveWhile, anchors_leaveWhile]
      exact congrArg (List.dropWhile _) anchors
    · rw [depth_leaveWhile, depth_leaveWhile]
  exact ⟨step_alike closed.alike, closed.anchors, closed.depth⟩

section Padded

variable (policy : ColumnPolicy) (duplicates : Duplicates)

theorem abreast_run (lines later : List (Padding × String)) :
    let b : Builder := ⟨.standard policy, .braceDepth, duplicates⟩
    Abreast (paddedColumn policy (lines ++ later)) (b.run (lines.map (·.2)))
      (b.run (lines.map fun l => l.1.around l.2)) := by
  intro b
  induction lines using List.reverseRecOn generalizing later with
  | nil => exact ⟨⟨rfl, rfl, rfl⟩, rfl, rfl⟩
  | append_singleton lines l ih =>
      have scanned : (b.run (lines.map (·.2))).stats.linesScanned = lines.length := by
        rw [(tally_run (lines.map (·.2))).scanned, List.length_map]
      have moved : paddedColumn policy (lines ++ l :: later) lines.length = policy.shifted l.1.left.length := by
        funext column
        simp [paddedColumn]
      have found : b.classifier.classify (l.1.around l.2) = (b.classifier.classify l.2).map fun d =>
          { d with column := policy.shifted l.1.left.length d.column } :=
        classify_around l.1 (c := b.classifier) follows_standard l.2
      rw [← moved, ← scanned] at found
      have stepped := (ih (l :: later)).step rfl (l.1.braceDelta_around l.2) found
      rw [List.map_append, List.map_append, List.append_assoc, List.map_singleton, List.map_singleton,
        b.run_concat, b.run_concat]
      exact stepped

/-- **Counting braces, blanks around the lines change nothing but columns.** Each node has the kind, the
name, the line and the children that it had, and the counts are the same; a column that is read off the line
moves by as many characters as were put before it. -/
theorem build_padded (lines : List (Padding × String)) (revision : UInt64) :
    let b : Builder := ⟨.standard policy, .braceDepth, duplicates⟩
    let plain := b.build (lines.map (·.2)) revision
    b.build (lines.map fun l => l.1.around l.2) revision =
      { plain with roots := Forest.recolumn (paddedColumn policy lines) plain.roots } := by
  intro b plain
  have abreast := abreast_run policy duplicates lines []
  rw [List.append_nil] at abreast
  exact build_alike revision abreast.alike

end Padded

end Builder

end CodeOutline
