import Mathlib.Order.Fin.Clamp
import CodeOutline.Proofs.Extraction

/-!
# Proofs.IndentNesting — nesting by indentation, read off the lines

The scope of a line is closed by the first line from there on that has a `}`, is indented just like it, and finds
every scope opened in between closed before (`ClosesAt`, `closingLine`). The last condition refers to closing lines
again, but only of later scopes. A line thus closes one scope at most, and a closer that is not aligned with the
innermost scope leaves it open, and with it all the scopes around it.

A node lies in the scopes that are open before its line (`OpenBefore`). The builder looks at the top of its stack
only, and the anchors on the stack are in no order. What carries the proof is that the stack holds the scopes
without a closing line among the lines read so far (`Indented`). One more line gives a closing line to the
innermost of them or to none (`unclosed_concat`), and leaves the closing lines there are as they were
(`closingLine_concat`).
-/

namespace CodeOutline

set_option autoImplicit false

open CodeOutline.Line

/-- Line `k` has a `}` and is indented like line `i`. -/
def Aligned (lines : List String) (i k : Nat) : Prop :=
  ∃ header ∈ lines[i]?, ∃ closer ∈ lines[k]?, '}' ∈ closer.toList ∧ indentOf closer = indentOf header

instance (lines : List String) (i k : Nat) : Decidable (Aligned lines i k) :=
  inferInstanceAs (Decidable (∃ header ∈ lines[i]?, ∃ closer ∈ lines[k]?, _ ∧ _))

/-- The line that closes the scope of line `i`, where scopes start on some lines: the first from there on that is
aligned with it and before which each scope that starts in between is closed. -/
def closingLine (lines : List String) (scopes : List Nat) (i : Nat) : Option Nat :=
  let closes (k : Fin lines.length) : Bool :=
    i ≤ k.val ∧ Aligned lines i k.val ∧ scopes.all fun j =>
      if _ : i < j ∧ j ≤ k.val then (closingLine lines scopes j).any (· < k.val) else true
  (Fin.find? closes).map (·.val)
termination_by lines.length - i
decreasing_by omega

/-- Line `k` could close the scope of line `i`. -/
def ClosesAt (lines : List String) (scopes : List Nat) (i k : Nat) : Prop :=
  i ≤ k ∧ Aligned lines i k ∧
    ∀ j ∈ scopes, i < j → j ≤ k → ∃ m, closingLine lines scopes j = some m ∧ m < k

/-- The scope of line `i` starts before line `j`, and no line before line `j` closes it. -/
def OpenBefore (lines : List String) (scopes : List Nat) (i j : Nat) : Prop :=
  i < j ∧ ∀ k ∈ closingLine lines scopes i, j ≤ k

instance (lines : List String) (scopes : List Nat) (i j : Nat) : Decidable (OpenBefore lines scopes i j) :=
  inferInstanceAs (Decidable (_ ∧ _))

section Closing

variable {lines : List String} {scopes late : List Nat} {i k : Nat}

theorem Aligned.lt_length (aligned : Aligned lines i k) : k < lines.length := by
  obtain ⟨_, -, closer, found, -⟩ := aligned
  exact (List.getElem?_eq_some_iff.1 found).1

/-- The closing line is the first line that could close the scope. -/
theorem closingLine_eq_some_iff :
    closingLine lines scopes i = some k ↔
      ClosesAt lines scopes i k ∧ ∀ earlier < k, ¬ ClosesAt lines scopes i earlier := by
  have closes_iff : ∀ m : Nat, (i ≤ m ∧ Aligned lines i m ∧ (scopes.all fun j =>
      if _ : i < j ∧ j ≤ m then (closingLine lines scopes j).any (· < m) else true) = true) ↔
        ClosesAt lines scopes i m := by
    intro m
    simp only [ClosesAt, List.all_eq_true]
    refine and_congr_right fun _ => and_congr_right fun _ => forall₂_congr fun j _ => ?_
    by_cases between : i < j ∧ j ≤ m
    · simp [between, Option.any_eq_true]
    · rw [dif_neg between]
      exact ⟨fun _ after before => absurd ⟨after, before⟩ between, fun _ => rfl⟩
  rw [closingLine, Option.map_eq_some_iff]
  simp only [Fin.find?_eq_some_iff, decide_eq_true_eq, decide_eq_false_iff_not, closes_iff]
  constructor
  · rintro ⟨m, ⟨closes, first⟩, rfl⟩
    refine ⟨closes, fun earlier before => ?_⟩
    exact first ⟨earlier, Nat.lt_trans before m.isLt⟩ before
  · rintro ⟨closes, first⟩
    exact ⟨⟨k, closes.2.1.lt_length⟩, ⟨closes, fun earlier before => first earlier before⟩, rfl⟩

theorem closingLine_eq_none_iff : closingLine lines scopes i = none ↔ ∀ k, ¬ ClosesAt lines scopes i k := by
  constructor
  · intro unclosed k closes
    induction k using Nat.strongRecOn with
    | ind k ih =>
        have closed : closingLine lines scopes i = some k := closingLine_eq_some_iff.2 ⟨closes, ih⟩
        rw [unclosed] at closed
        cases closed
  · intro never
    apply Option.eq_none_iff_forall_ne_some.2
    intro k closed
    exact never k (closingLine_eq_some_iff.1 closed).1

theorem lt_length_of_closingLine (closed : closingLine lines scopes i = some k) : k < lines.length :=
  (closingLine_eq_some_iff.1 closed).1.2.1.lt_length

/-- Where the same lines could close a scope, the same line closes it. -/
theorem closingLine_congr {lines' : List String} {scopes' : List Nat}
    (same : ∀ m ≤ k, ClosesAt lines' scopes' i m ↔ ClosesAt lines scopes i m) :
    closingLine lines' scopes' i = some k ↔ closingLine lines scopes i = some k := by
  rw [closingLine_eq_some_iff, closingLine_eq_some_iff, same k (Nat.le_refl k)]
  refine and_congr_right fun _ => forall₂_congr fun m before => ?_
  rw [same m (Nat.le_of_lt before)]

/-! ## One more line -/

variable (line : String)

theorem aligned_concat (le : i ≤ k) (lt : k < lines.length) : Aligned (lines ++ [line]) i k ↔ Aligned lines i k := by
  unfold Aligned
  rw [List.getElem?_append_left lt, List.getElem?_append_left (Nat.lt_of_le_of_lt le lt)]

/-- Neither a later line nor a scope that starts there matters to what could be closed before. What could close
a scope rests on the closing lines of later scopes, so the induction goes from the last line back. -/
theorem closesAt_concat (after : ∀ j ∈ late, lines.length ≤ j) (lt : k < lines.length) :
    ClosesAt (lines ++ [line]) (scopes ++ late) i k ↔ ClosesAt lines scopes i k := by
  induction back : lines.length - i using Nat.strongRecOn generalizing i k with
  | ind back ih =>
      have inner : ∀ j m, i < j → j ≤ k → m < k →
          (closingLine (lines ++ [line]) (scopes ++ late) j = some m ↔ closingLine lines scopes j = some m) := by
        intro j m later before below
        apply closingLine_congr
        intro m' le
        exact ih (lines.length - j) (by omega) (by omega) rfl
      have inside : (∀ j ∈ scopes ++ late, i < j → j ≤ k →
            ∃ m, closingLine (lines ++ [line]) (scopes ++ late) j = some m ∧ m < k) ↔
          ∀ j ∈ scopes, i < j → j ≤ k → ∃ m, closingLine lines scopes j = some m ∧ m < k := by
        constructor
        · intro closed j member later before
          obtain ⟨m, found, below⟩ := closed j (List.mem_append_left _ member) later before
          exact ⟨m, (inner j m later before below).1 found, below⟩
        · intro closed j member later before
          rcases List.mem_append.1 member with member | member
          · obtain ⟨m, found, below⟩ := closed j member later before
            exact ⟨m, (inner j m later before below).2 found, below⟩
          · have past := after j member
            omega
      unfold ClosesAt
      rw [inside]
      refine and_congr_right fun le => ?_
      rw [aligned_concat line le lt]

/-- A closing line stays the closing line when a line is added. -/
theorem closingLine_concat (after : ∀ j ∈ late, lines.length ≤ j) (lt : k < lines.length) :
    closingLine (lines ++ [line]) (scopes ++ late) i = some k ↔ closingLine lines scopes i = some k :=
  closingLine_congr fun _ le => closesAt_concat line after (Nat.lt_of_le_of_lt le lt)

/-- The line that is added could close a scope if it is aligned with it and the later scopes are closed. -/
theorem closesAt_concat_length (after : ∀ j ∈ late, lines.length ≤ j) :
    ClosesAt (lines ++ [line]) (scopes ++ late) i lines.length ↔
      i ≤ lines.length ∧ Aligned (lines ++ [line]) i lines.length ∧
        ∀ j ∈ scopes ++ late, i < j → j ≤ lines.length → closingLine lines scopes j ≠ none := by
  refine and_congr_right fun _ => and_congr_right fun _ => forall₂_congr fun j _ =>
    forall₂_congr fun _ _ => ?_
  rw [Option.ne_none_iff_exists']
  constructor
  · rintro ⟨m, found, below⟩
    exact ⟨m, (closingLine_concat line after below).1 found⟩
  · rintro ⟨m, found⟩
    have below := lt_length_of_closingLine found
    exact ⟨m, (closingLine_concat line after below).2 found, below⟩

/-- A scope that is open after one more line was open before it, and the line could not close it. -/
theorem closingLine_concat_eq_none_iff (after : ∀ j ∈ late, lines.length ≤ j) :
    closingLine (lines ++ [line]) (scopes ++ late) i = none ↔
      closingLine lines scopes i = none ∧ ¬ ClosesAt (lines ++ [line]) (scopes ++ late) i lines.length := by
  simp only [closingLine_eq_none_iff]
  constructor
  · intro never
    refine ⟨fun k closes => ?_, never _⟩
    exact never k ((closesAt_concat line after closes.2.1.lt_length).2 closes)
  · rintro ⟨earlier, last⟩ k closes
    have lt := closes.2.1.lt_length
    rw [List.length_append, List.length_singleton] at lt
    rcases Nat.lt_succ_iff_lt_or_eq.1 lt with before | rfl
    · exact earlier k ((closesAt_concat line after before).1 closes)
    · exact last closes

end Closing

/-! ## The scopes that are open -/

def scopeLines (es : List (Nat × Declaration)) : List Nat := (es.filter (·.2.kind.isScope)).map (·.1)

def holding (lines : List String) (j : Nat) (es : List (Nat × Declaration)) : List (Nat × Declaration) :=
  es.filter fun e => e.2.kind.isScope ∧ OpenBefore lines (scopeLines es) e.1 j

def unclosed (lines : List String) (scopes : List Nat) (es : List (Nat × Declaration)) : List (Nat × Declaration) :=
  es.filter fun e => e.2.kind.isScope ∧ closingLine lines scopes e.1 = none

section Holding

variable {lines : List String} (line : String) {es late : List (Nat × Declaration)}

theorem scopeLines_append : scopeLines (es ++ late) = scopeLines es ++ scopeLines late := by
  simp [scopeLines]

theorem mem_scopeLines_iff {j : Nat} : j ∈ scopeLines es ↔ ∃ e ∈ es, e.2.kind.isScope = true ∧ e.1 = j := by
  simp only [scopeLines, List.mem_map, List.mem_filter, and_assoc]

theorem le_of_mem_scopeLines {n : Nat} (after : ∀ e ∈ late, n ≤ e.1) : ∀ j ∈ scopeLines late, n ≤ j := by
  intro j member
  obtain ⟨e, listed, -, rfl⟩ := mem_scopeLines_iff.1 member
  exact after e listed

/-- Neither a later line nor what it declares changes which scopes are open before it. -/
theorem holding_concat {j : Nat} (le : j ≤ lines.length) (after : ∀ e ∈ late, lines.length ≤ e.1) :
    holding (lines ++ [line]) j (es ++ late) = holding lines j es := by
  have later : ∀ i ∈ scopeLines late, lines.length ≤ i := le_of_mem_scopeLines after
  have same : ∀ i, OpenBefore (lines ++ [line]) (scopeLines (es ++ late)) i j ↔
      OpenBefore lines (scopeLines es) i j := by
    intro i
    rw [scopeLines_append]
    refine and_congr_right fun _ => ⟨fun still k closed => ?_, fun still k closed => ?_⟩
    · exact still k ((closingLine_concat line later (lt_length_of_closingLine closed)).2 closed)
    · by_cases before : k < lines.length
      · exact still k ((closingLine_concat line later before).1 closed)
      · omega
  have outside : late.filter (fun e => e.2.kind.isScope ∧
      OpenBefore (lines ++ [line]) (scopeLines (es ++ late)) e.1 j) = [] := by
    apply List.filter_eq_nil_iff.2
    intro e member open_scope
    have past := after e member
    have starts : e.1 < j := (of_decide_eq_true open_scope).2.1
    omega
  rw [holding, List.filter_append, outside, List.append_nil, holding]
  apply List.filter_congr
  intro e _
  simp only [same]

theorem mem_unclosed_iff {scopes : List Nat} {e : Nat × Declaration} :
    e ∈ unclosed lines scopes es ↔ e ∈ es ∧ e.2.kind.isScope = true ∧ closingLine lines scopes e.1 = none := by
  rw [unclosed, List.mem_filter, decide_eq_true_eq]

/-- The scopes open before the end are those that no line closes. -/
theorem holding_length (before : ∀ e ∈ es, e.1 < lines.length) :
    holding lines lines.length es = unclosed lines (scopeLines es) es := by
  apply List.filter_congr
  intro e member
  have same : OpenBefore lines (scopeLines es) e.1 lines.length ↔ closingLine lines (scopeLines es) e.1 = none := by
    constructor
    · rintro ⟨-, still⟩
      apply Option.eq_none_iff_forall_ne_some.2
      intro k closed
      have below := lt_length_of_closingLine closed
      have above := still k closed
      omega
    · intro never
      exact ⟨before e member, by simp [never]⟩
  simp only [same]

/-- What starts on a line past the end is closed by none. -/
theorem unclosed_append {scopes : List Nat} (after : ∀ e ∈ late, lines.length ≤ e.1) :
    unclosed lines scopes (es ++ late) = unclosed lines scopes es ++ late.filter (·.2.kind.isScope) := by
  rw [unclosed, List.filter_append]
  congr 1
  apply List.filter_congr
  intro e member
  have past := after e member
  have never : closingLine lines scopes e.1 = none := by
    apply closingLine_eq_none_iff.2
    intro k closes
    have from_e := closes.1
    have below := closes.2.1.lt_length
    omega
  simp [never]

/-- The line that is added could close an entry's scope if it is aligned with it and none that is open starts
later. -/
theorem closesAt_concat_iff (on_line : ∀ e ∈ es ++ late, e.1 ≤ lines.length)
    (after : ∀ e ∈ late, lines.length ≤ e.1) {e : Nat × Declaration} (member : e ∈ es ++ late) :
    ClosesAt (lines ++ [line]) (scopeLines (es ++ late)) e.1 lines.length ↔
      Aligned (lines ++ [line]) e.1 lines.length ∧
        ∀ e' ∈ unclosed lines (scopeLines es) (es ++ late), e'.1 ≤ e.1 := by
  rw [scopeLines_append, closesAt_concat_length line (le_of_mem_scopeLines after),
    and_iff_right (on_line e member), ← scopeLines_append]
  refine and_congr_right fun _ => ⟨fun closed e' opened => ?_, fun innermost j listed later _ never => ?_⟩
  · obtain ⟨known, scope, never⟩ := mem_unclosed_iff.1 opened
    have listed : e'.1 ∈ scopeLines (es ++ late) := mem_scopeLines_iff.2 ⟨e', known, scope, rfl⟩
    exact Nat.le_of_not_lt fun later => closed e'.1 listed later (on_line e' known) never
  · obtain ⟨e', known, scope, rfl⟩ := mem_scopeLines_iff.1 listed
    have not_later := innermost e' (mem_unclosed_iff.2 ⟨known, scope, never⟩)
    omega

/-- An open scope stays open unless it is the last one and the line that is added is aligned with it. -/
theorem closingLine_of_unclosed (on_line : ∀ e ∈ es ++ late, e.1 ≤ lines.length)
    (after : ∀ e ∈ late, lines.length ≤ e.1) {e : Nat × Declaration}
    (opened : e ∈ unclosed lines (scopeLines es) (es ++ late)) :
    closingLine (lines ++ [line]) (scopeLines (es ++ late)) e.1 = none ↔
      ¬ (Aligned (lines ++ [line]) e.1 lines.length ∧
        ∀ e' ∈ unclosed lines (scopeLines es) (es ++ late), e'.1 ≤ e.1) := by
  obtain ⟨member, -, never⟩ := mem_unclosed_iff.1 opened
  rw [← closesAt_concat_iff line on_line after member, scopeLines_append,
    closingLine_concat_eq_none_iff line (le_of_mem_scopeLines after)]
  exact and_iff_right never

/-- What is open after one more line was open before. -/
theorem unclosed_concat_eq_filter (after : ∀ e ∈ late, lines.length ≤ e.1) :
    unclosed (lines ++ [line]) (scopeLines (es ++ late)) (es ++ late) =
      (unclosed lines (scopeLines es) (es ++ late)).filter fun e =>
        closingLine (lines ++ [line]) (scopeLines (es ++ late)) e.1 = none := by
  rw [unclosed, unclosed, List.filter_filter]
  apply List.filter_congr
  intro e _
  have earlier : closingLine (lines ++ [line]) (scopeLines (es ++ late)) e.1 = none →
      closingLine lines (scopeLines es) e.1 = none := by
    rw [scopeLines_append, closingLine_concat_eq_none_iff line (le_of_mem_scopeLines after)]
    exact And.left
  rw [Bool.eq_iff_iff, Bool.and_eq_true]
  simp only [decide_eq_true_eq]
  constructor
  · rintro ⟨scope, never⟩
    exact ⟨never, scope, earlier never⟩
  · rintro ⟨never, scope, -⟩
    exact ⟨scope, never⟩

/-- **One more line closes the last of the open scopes** if it is aligned with it, and no other. -/
theorem unclosed_concat (on_line : ∀ e ∈ es ++ late, e.1 ≤ lines.length) (after : ∀ e ∈ late, lines.length ≤ e.1)
    {outer : List (Nat × Declaration)} {top : Nat × Declaration}
    (opened : unclosed lines (scopeLines es) (es ++ late) = outer ++ [top]) (inside : ∀ e ∈ outer, e.1 < top.1) :
    unclosed (lines ++ [line]) (scopeLines (es ++ late)) (es ++ late) =
      if Aligned (lines ++ [line]) top.1 lines.length then outer else outer ++ [top] := by
  have still := fun e => closingLine_of_unclosed (e := e) line on_line after
  rw [opened] at still
  have outer_open : ∀ e ∈ outer, closingLine (lines ++ [line]) (scopeLines (es ++ late)) e.1 = none := by
    intro e member
    apply (still e (List.mem_append_left _ member)).2
    rintro ⟨-, innermost⟩
    have later := inside e member
    have not_later := innermost top (by simp)
    omega
  have top_open : closingLine (lines ++ [line]) (scopeLines (es ++ late)) top.1 = none ↔
      ¬ Aligned (lines ++ [line]) top.1 lines.length := by
    have innermost : ∀ e ∈ outer ++ [top], e.1 ≤ top.1 := by
      intro e member
      rcases List.mem_append.1 member with member | member
      · exact Nat.le_of_lt (inside e member)
      · rw [List.mem_singleton.1 member]
    rw [still top (by simp), and_iff_left innermost]
  have kept : outer.filter (fun e =>
      closingLine (lines ++ [line]) (scopeLines (es ++ late)) e.1 = none) = outer :=
    List.filter_eq_self.2 fun e member => decide_eq_true (outer_open e member)
  rw [unclosed_concat_eq_filter line after, opened, List.filter_append, kept]
  by_cases aligned : Aligned (lines ++ [line]) top.1 lines.length
  · simp [top_open, aligned]
  · simp [top_open, aligned]

end Holding

namespace Builder

/-- What the stack of a build that goes by indentation is like after some lines. -/
structure Indented (lines : List String) (p : Progress) : Prop where
  anchored : ∀ m ∈ p.marks, ∃ header ∈ lines[m.1.1]?, m.2 = indentOf header
  opened : p.path = unclosed lines (scopeLines (Forest.entries p.forest)) (Forest.entries p.forest)
  placed : ∀ above e, (above, e) ∈ Forest.lineage Node.entry [] p.forest →
    above = holding lines e.1 (Forest.entries p.forest)

section Step

variable {b : Builder} {lines : List String} {p : Progress} (line : String)

/-- Once the declaration of a line is taken in, each anchor is the indentation of its line. -/
theorem Indented.declared (indented : Indented lines p) (indentation : b.nesting = .indentation)
    (tally : b.Tally lines p) :
    ∀ m ∈ (b.declared p line).marks, ∃ header ∈ (lines ++ [line])[m.1.1]?, m.2 = indentOf header := by
  intro m member
  rw [b.marks_declared] at member
  rcases List.mem_append.1 member with own | earlier
  · obtain ⟨e, taken, rfl⟩ := List.mem_map.1 own
    refine ⟨line, ?_, ?_⟩
    · rw [tally.line_of_taken (List.mem_filter.1 taken).1]
      exact List.getElem?_concat_length
    · simp [Builder.anchor, indentation]
  · obtain ⟨header, found, same⟩ := indented.anchored m earlier
    have lt : m.1.1 < lines.length := (List.getElem?_eq_some_iff.1 found).1
    refine ⟨header, ?_, same⟩
    rw [List.getElem?_append_left lt]
    exact found

/-- The scopes open once the declaration of a line is taken in are those without a closing line so far. -/
theorem Indented.path_declared (indented : Indented lines p) (tally : b.Tally lines p) :
    (b.declared p line).path =
      unclosed lines (scopeLines (Forest.entries p.forest))
        (Forest.entries p.forest ++ (b.taken p line).toList) := by
  rw [b.path_declared, indented.opened,
    unclosed_append fun e taken => Nat.le_of_eq (tally.line_of_taken taken).symm]

/-- A line with a `}` is aligned with a scope on the stack if it is indented as the anchor says. -/
theorem aligned_iff_anchor {m : (Nat × Declaration) × Int}
    (anchored : ∃ header ∈ (lines ++ [line])[m.1.1]?, m.2 = indentOf header) :
    Aligned (lines ++ [line]) m.1.1 lines.length ↔ '}' ∈ line.toList ∧ m.2 = indentOf line := by
  obtain ⟨header, found, same⟩ := anchored
  have closer : (lines ++ [line])[lines.length]? = some line := List.getElem?_concat_length
  rw [Option.mem_def] at found
  simp only [Aligned, found, closer, Option.mem_some, exists_eq_left', same, Int.natCast_inj]
  rw [eq_comm (a := indentOf line)]

theorem Indented.path_step (indented : Indented lines p) (indentation : b.nesting = .indentation)
    (tally : b.Tally lines p) :
    (b.step p line).path =
      unclosed (lines ++ [line]) (scopeLines (Forest.entries p.forest ++ (b.taken p line).toList))
        (Forest.entries p.forest ++ (b.taken p line).toList) := by
  have after : ∀ e ∈ (b.taken p line).toList, lines.length ≤ e.1 := fun e taken =>
    Nat.le_of_eq (tally.line_of_taken taken).symm
  have on_line : ∀ e ∈ Forest.entries p.forest ++ (b.taken p line).toList, e.1 ≤ lines.length := by
    intro e member
    rcases List.mem_append.1 member with earlier | own
    · exact Nat.le_of_lt (tally.line_lt earlier)
    · exact Nat.le_of_eq (tally.line_of_taken own)
  have opened := indented.path_declared line tally
  have marks := (b.step_of_indentation indentation p line).2
  cases stack : (b.declared p line).marks with
  | nil =>
      have no_scope : (b.declared p line).path = [] := by simp [Progress.path, stack]
      rw [no_scope] at opened
      rw [unclosed_concat_eq_filter line after, ← opened]
      simp [Progress.path, marks, stack]
  | cons top outer =>
      have path : (b.declared p line).path = (outer.map (·.1)).reverse ++ [top.1] := by
        simp [Progress.path, stack]
      rw [path] at opened
      have increasing : ((outer.map (·.1)).reverse ++ [top.1]).Pairwise (·.1 < ·.1) := by
        have ordered := Forest.ordered_iff_entries.1 (tally.step line).ordered
        rw [b.entries_forest_step] at ordered
        rw [opened]
        exact ordered.filter _
      have inside : ∀ e ∈ (outer.map (·.1)).reverse, e.1 < top.1.1 := fun e member =>
        (List.pairwise_append.1 increasing).2.2 e member top.1 (by simp)
      have anchored := indented.declared line indentation tally top (by simp [stack])
      have aligned := aligned_iff_anchor line anchored
      rw [unclosed_concat line on_line after opened.symm inside]
      simp only [stack, List.head?_cons, Option.map_some, Option.some.injEq, List.tail_cons, ← aligned] at marks
      rw [Progress.path, marks]
      split
      · rfl
      · simp

theorem Indented.step (indented : Indented lines p) (indentation : b.nesting = .indentation)
    (tally : b.Tally lines p) : Indented (lines ++ [line]) (b.step p line) := by
  have after : ∀ e ∈ (b.taken p line).toList, lines.length ≤ e.1 := fun e taken =>
    Nat.le_of_eq (tally.line_of_taken taken).symm
  refine ⟨?_, ?_, ?_⟩
  · intro m member
    exact indented.declared line indentation tally m ((b.marks_close_suffix _ line).subset member)
  · rw [b.entries_forest_step]
    exact indented.path_step line indentation tally
  · intro above e member
    rw [b.entries_forest_step]
    rcases b.mem_lineage_step member with earlier | ⟨rfl, taken⟩
    · have lt := tally.line_lt (Forest.mem_entries_of_mem_lineage earlier)
      rw [holding_concat line (Nat.le_of_lt lt) after]
      exact indented.placed above e earlier
    · rw [tally.line_of_taken taken, holding_concat line (Nat.le_refl _) after, holding_length fun e => tally.line_lt]
      exact indented.opened

theorem indented_run (indentation : b.nesting = .indentation) (lines : List String) :
    Indented lines (b.run lines) := by
  induction lines using List.reverseRecOn with
  | nil => exact ⟨nofun, rfl, nofun⟩
  | append_singleton lines line ih =>
      rw [b.run_concat]
      exact ih.step line indentation (tally_run lines)

end Step

end Builder

/-! ## Parents -/

namespace Forest

variable {ns : List Node} {holds : Node → Node → Bool}

/-- Where a test tells the nodes that a node lies in, a root is a node that none passes for. -/
theorem mem_roots_iff (around : ∀ above n, (above, n) ∈ lineage id [] ns → above = (nodes ns).filter (holds n))
    {n : Node} (member : n ∈ nodes ns) : n ∈ ns ↔ ∀ s ∈ nodes ns, holds n s = false := by
  constructor
  · intro root s known
    have none_passes := around [] n (mem_lineage_root root)
    simpa using List.filter_eq_nil_iff.1 none_passes.symm s known
  · intro outside
    obtain ⟨above, placed⟩ := exists_mem_lineage member
    obtain ⟨-, root⟩ | ⟨outer, parent, rfl, -, -⟩ := mem_lineage_cases placed
    · exact root
    · have inside : parent ∈ (nodes ns).filter (holds n) := by
        rw [← around _ n placed]
        simp
      obtain ⟨known, passes⟩ := List.mem_filter.1 inside
      rw [outside parent known] at passes
      cases passes

/-- The parent of a node is the last node that passes the test. -/
theorem Ordered.mem_children_iff (ordered : Ordered ns)
    (around : ∀ above n, (above, n) ∈ lineage id [] ns → above = (nodes ns).filter (holds n))
    {n s : Node} (member : n ∈ nodes ns) (known : s ∈ nodes ns) :
    n ∈ s.children ↔ holds n s = true ∧ ∀ t ∈ nodes ns, holds n t = true → t.line ≤ s.line := by
  have innermost : ∀ outer parent, (outer ++ [parent], n) ∈ lineage id [] ns →
      parent ∈ nodes ns ∧ holds n parent = true ∧
        ∀ t ∈ nodes ns, holds n t = true → t.line < parent.line ∨ t = parent := by
    intro outer parent placed
    have path := around _ n placed
    have inside : parent ∈ (nodes ns).filter (holds n) := by
      rw [← path]
      simp
    refine ⟨(List.mem_filter.1 inside).1, (List.mem_filter.1 inside).2, fun t listed passes => ?_⟩
    have increasing : (outer ++ [parent]).Pairwise (·.line < ·.line) := by
      rw [path]
      exact List.Pairwise.filter _ ordered
    have above : t ∈ outer ++ [parent] := by
      rw [path]
      exact List.mem_filter.2 ⟨listed, passes⟩
    rcases List.mem_append.1 above with further_out | own
    · exact .inl ((List.pairwise_append.1 increasing).2.2 t further_out parent (by simp))
    · exact .inr (List.mem_singleton.1 own)
  constructor
  · intro child
    obtain ⟨outer, placed⟩ := exists_mem_lineage known
    obtain ⟨-, passes, last⟩ := innermost outer s (mem_lineage_child placed child)
    refine ⟨passes, fun t listed passes' => ?_⟩
    rcases last t listed passes' with before | rfl
    · exact Nat.le_of_lt before
    · exact Nat.le_refl _
  · rintro ⟨passes, last⟩
    obtain ⟨above, placed⟩ := exists_mem_lineage member
    obtain ⟨rfl, -⟩ | ⟨outer, parent, rfl, -, child⟩ := mem_lineage_cases placed
    · have outside := List.filter_eq_nil_iff.1 (around _ n placed).symm s known
      exact absurd passes outside
    · obtain ⟨listed, passes', order⟩ := innermost outer parent placed
      rcases order s known passes with before | rfl
      · have not_before := last parent listed passes'
        omega
      · exact child

end Forest

namespace Builder

theorem Indented.length_scopes {lines : List String} {p : Progress} (indented : Indented lines p) :
    p.scopes.length = (Forest.nodes p.forest).countP fun s =>
      s.kind.isScope ∧ closingLine lines (scopeLines (Forest.entries p.forest)) s.line = none := by
  have length : p.scopes.length = p.path.length := by simp [Progress.path, Progress.marks]
  rw [length, indented.opened, unclosed, ← List.countP_eq_length_filter, Forest.entries, List.countP_map]
  rfl

/-- **Nesting by indentation, read off the lines.** The closing line of a scope is the first line from its own on
that has a `}`, is indented like it, and before which every scope that starts in between is closed. A node is a root
if no scope is open before its line, and otherwise it is held by the last that is. The scopes counted as unclosed are
those without a closing line. -/
theorem build_nests_by_indentation (c : Classifier) (duplicates : Duplicates) (lines : List String)
    (revision : UInt64) :
    let o := Builder.build ⟨c, .indentation, duplicates⟩ lines revision
    let scopes := scopeLines (Forest.entries o.roots)
    let holds (n s : Node) : Prop := s.kind.isScope ∧ OpenBefore lines scopes s.line n.line
    (∀ i k, closingLine lines scopes i = some k ↔
        ClosesAt lines scopes i k ∧ ∀ earlier < k, ¬ ClosesAt lines scopes i earlier) ∧
      (∀ n ∈ Forest.nodes o.roots,
        (n ∈ o.roots ↔ ∀ s ∈ Forest.nodes o.roots, ¬ holds n s) ∧
        ∀ s ∈ Forest.nodes o.roots,
          (n ∈ s.children ↔ holds n s ∧ ∀ t ∈ Forest.nodes o.roots, holds n t → t.line ≤ s.line)) ∧
      o.stats.unclosedScopes = ((Forest.nodes o.roots).countP fun s =>
        s.kind.isScope ∧ closingLine lines scopes s.line = none) := by
  intro o scopes holds
  let b : Builder := ⟨c, .indentation, duplicates⟩
  have tally : b.Tally lines (b.run lines) := tally_run lines
  have indented : Indented lines (b.run lines) := indented_run rfl lines
  have ordered : Forest.Ordered o.roots := tally.ordered
  have around : ∀ above n, (above, n) ∈ Forest.lineage id [] o.roots →
      above = (Forest.nodes o.roots).filter fun s =>
        s.kind.isScope ∧ OpenBefore lines scopes s.line n.line :=
    fun above n placed => ordered.above_eq_filter indented.placed placed
  refine ⟨fun i k => closingLine_eq_some_iff, fun n member => ⟨?_, fun s known => ?_⟩, indented.length_scopes⟩
  · have roots := Forest.mem_roots_iff around member
    simp only [decide_eq_false_iff_not] at roots
    exact roots
  · have parent := ordered.mem_children_iff around member known
    simp only [decide_eq_true_eq] at parent
    exact parent

end Builder

end CodeOutline
