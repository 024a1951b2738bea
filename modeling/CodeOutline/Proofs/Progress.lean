import CodeOutline.Builder
import CodeOutline.Proofs.Forest

/-!
# Proofs.Progress — what a line does to a build

A scope joins its parent only when it closes, but where it will join is settled when it opens. So a build
is looked at through the forest it would end with if no line followed (`Progress.forest`). Closing scopes,
however many and for whatever reason, does not change that forest (`forest_leave`). A declaration
adds one node at its end, inside the scopes open at that moment, whether it opens a scope of its own or
not (`lineage_forest_attach`, `forest_enter`). What remains of the stack is the entries and anchors of
the open scopes (`marks`), on which closing is a `dropWhile`.

`Builder.taken` is what a line adds, and the lemmas on `step` say all that a line does in these terms.
-/

namespace CodeOutline

set_option autoImplicit false

open CodeOutline.Line

namespace Progress

/-- The forest of a build that ends here: every scope that is open is closed. -/
def forest (p : Progress) : List Node := (p.leaveWhile fun _ => true).roots

/-- The entries and anchors of the open scopes, from the innermost outwards. -/
def marks (p : Progress) : List ((Nat × Declaration) × Int) :=
  p.scopes.map fun s => (s.node.entry, s.anchor)

def path (p : Progress) : List (Nat × Declaration) := (p.marks.map (·.1)).reverse

/-! ## Closing scopes -/

@[simp] theorem marks_attach (p : Progress) (n : Node) : (p.attach n).marks = p.marks := by
  unfold attach marks
  split <;> simp_all

@[simp] theorem marks_enter (p : Progress) (n : Node) (anchor : Int) :
    (p.enter n anchor).marks = (n.entry, anchor) :: p.marks := rfl

@[simp] theorem marks_leave (p : Progress) : p.leave.marks = p.marks.tail := by
  cases opened : p.scopes with
  | nil => simp [leave, marks, opened]
  | cons top outer =>
      simp only [leave, opened, marks_attach]
      simp [marks, opened]

theorem depth_attach (p : Progress) (n : Node) : (p.attach n).depth = p.depth := by
  unfold attach; split <;> rfl

theorem stats_attach (p : Progress) (n : Node) : (p.attach n).stats = p.stats := by
  unfold attach; split <;> rfl

theorem depth_leave (p : Progress) : p.leave.depth = p.depth := by
  unfold leave; split <;> simp [depth_attach]

theorem stats_leave (p : Progress) : p.leave.stats = p.stats := by
  unfold leave; split <;> simp [stats_attach]

/-- What closing one scope keeps, closing several keeps. -/
theorem leaveWhile_keeps {P : Progress → Prop} (keeps : ∀ q, P q → P q.leave)
    (closes : Int → Bool) {p : Progress} (before : P p) : P (p.leaveWhile closes) := by
  unfold leaveWhile
  generalize p.scopes.length = count
  induction count generalizing p with
  | zero => exact before
  | succ count ih =>
      unfold leaveUpTo
      split
      · exact before
      · split
        · exact ih (keeps p before)
        · exact before

@[simp] theorem depth_leaveWhile (p : Progress) (closes : Int → Bool) :
    (p.leaveWhile closes).depth = p.depth :=
  leaveWhile_keeps (P := fun q => q.depth = p.depth) (fun q h => (depth_leave q).trans h) closes rfl

/-- On the marks, closing scopes is dropping them. -/
theorem marks_leaveWhile (p : Progress) (closes : Int → Bool) :
    (p.leaveWhile closes).marks = p.marks.dropWhile (closes ·.2) := by
  induction shown : p.marks generalizing p with
  | nil =>
      have none_open : p.scopes = [] := by simpa [marks] using shown
      rw [leaveWhile_eq]
      simp [none_open, shown]
  | cons mark outer ih =>
      obtain ⟨top, rest, opened⟩ : ∃ top rest, p.scopes = top :: rest := by
        cases h : p.scopes with
        | nil => simp [marks, h] at shown
        | cons top rest => exact ⟨top, rest, rfl⟩
      have anchored : mark.2 = top.anchor := by
        simp only [marks, opened, List.map_cons, List.cons.injEq] at shown
        rw [← shown.1]
      rw [leaveWhile_eq]
      simp only [opened, List.dropWhile_cons, anchored]
      split
      · exact ih p.leave (by rw [marks_leave, shown, List.tail_cons])
      · exact shown

/-! ## The forest of a build -/

theorem forest_of_no_scope {p : Progress} (none_open : p.scopes = []) : p.forest = p.roots := by
  unfold forest
  rw [leaveWhile_eq]
  simp [none_open]

/-- A scope that closes goes where it would have gone at the end. -/
theorem forest_leave (p : Progress) : p.leave.forest = p.forest := by
  cases opened : p.scopes with
  | nil => simp [leave, opened]
  | cons top outer =>
      unfold forest
      rw [leaveWhile_eq (p := p)]
      simp [opened]

/-- Depth and counts do not matter to the forest. -/
theorem forest_congr {p q : Progress} (scopes : p.scopes = q.scopes) (roots : p.roots = q.roots) :
    p.forest = q.forest := by
  induction size : p.scopes.length generalizing p q with
  | zero =>
      have none_open : p.scopes = [] := List.eq_nil_of_length_eq_zero size
      rw [forest_of_no_scope none_open, forest_of_no_scope (scopes ▸ none_open), roots]
  | succ count ih =>
      have shorter : p.leave.scopes.length = count := by rw [length_scopes_leave]; omega
      rw [← forest_leave p, ← forest_leave q]
      refine ih ?_ ?_ shorter
      all_goals
        obtain ⟨_, stack, _, _⟩ := p
        obtain ⟨_, _, _, _⟩ := q
        obtain rfl : stack = _ := scopes
        obtain rfl := roots
        rcases stack with _ | ⟨top, _ | ⟨next, outer⟩⟩ <;> rfl

theorem path_of_scopes {p q : Progress} {top : OpenScope} (opened : p.scopes = top :: q.scopes) :
    p.path = q.path ++ [top.node.entry] := by
  simp [path, marks, opened]

/-- **A finished node goes to the end of the forest,** inside the scopes that are open. By induction on the
stack: closing the innermost scope makes the new node a part of one that is attached one level further out. -/
theorem lineage_forest_attach (p : Progress) (n : Node) :
    Forest.lineage Node.entry [] (p.attach n).forest =
      Forest.lineage Node.entry [] p.forest ++ n.lineage Node.entry p.path := by
  induction opened : p.scopes generalizing p n with
  | nil =>
      have attached : (p.attach n).scopes = [] := by simp [attach, opened]
      rw [forest_of_no_scope attached, forest_of_no_scope opened]
      simp [attach, opened, Forest.lineage_append, Forest.lineage, path, marks]
  | cons top outer ih =>
      let q : Progress := { p with scopes := outer }
      have closed : p.leave = q.attach top.node := by simp [leave, opened, q]
      have closed' : (p.attach n).leave = q.attach (top.node.push n) := by
        simp [leave, attach, opened, q]
      rw [← forest_leave (p.attach n), ← forest_leave p, closed, closed', ih q _ rfl, ih q _ rfl,
        Node.lineage_entry_push, path_of_scopes (q := q) opened, List.append_assoc]

/-- A scope that opens is at once where it will be. -/
theorem forest_enter (p : Progress) (n : Node) (anchor : Int) :
    (p.enter n anchor).forest = (p.attach n).forest := by
  have closed : (p.enter n anchor).leave = p.attach n := by simp [leave, enter]
  rw [← forest_leave, closed]

end Progress

namespace Builder

variable (b : Builder)

/-- What a line adds to the outline, if it adds anything: its declaration, unless the name is refused. -/
def taken (p : Progress) (line : String) : Option (Nat × Declaration) :=
  ((b.classifier.classify line).filter fun d => !b.refuses p d.name).map (p.stats.linesScanned, ·)

/-- How far a build is when a line's declaration is taken in and nothing is closed yet. -/
def declared (p : Progress) (line : String) : Progress :=
  match b.classifier.classify line with
  | some d => b.declare p line d
  | none => p

/-! ## The declaration of a line -/

/-- A declaration that is given the number of its line has that number. -/
theorem fst_of_mem_numbered {found : Option Declaration} {number : Nat} {e : Nat × Declaration}
    (member : e ∈ (found.map (number, ·)).toList) : e.1 = number := by
  rw [Option.toList_map] at member
  obtain ⟨d, -, rfl⟩ := List.mem_map.1 member
  rfl

theorem taken_of_none {p : Progress} {line : String} (silent : b.classifier.classify line = none) :
    b.taken p line = none := by
  simp [taken, silent]

theorem taken_of_refused {p : Progress} {line : String} {d : Declaration}
    (found : b.classifier.classify line = some d) (refused : b.refuses p d.name = true) :
    b.taken p line = none := by
  simp [taken, found, refused]

theorem taken_of_accepted {p : Progress} {line : String} {d : Declaration}
    (found : b.classifier.classify line = some d) (accepted : b.refuses p d.name = false) :
    b.taken p line = some (p.stats.linesScanned, d) := by
  simp [taken, found, accepted]

/-- The three things that can become of a line: it declares nothing, its name is refused, or it adds
a node that holds nothing yet. -/
theorem declared_cases (p : Progress) (line : String) :
    (b.classifier.classify line = none ∧ b.declared p line = p) ∨
      (∃ d, b.classifier.classify line = some d ∧ b.refuses p d.name = true ∧
        b.declared p line =
          { p with stats := { p.stats with duplicatesDropped := p.stats.duplicatesDropped + 1 } }) ∨
      ∃ d, b.classifier.classify line = some d ∧ b.refuses p d.name = false ∧
        b.declared p line =
          let node := Node.leaf d.kind d.name p.stats.linesScanned d.column
          { (if d.kind.isScope then p.enter node (b.anchor p line) else p.attach node) with
            stats := { p.stats with nodes := p.stats.nodes + 1 } } := by
  unfold declared
  cases found : b.classifier.classify line with
  | none => exact .inl ⟨rfl, rfl⟩
  | some d =>
      right
      cases refused : b.refuses p d.name with
      | true => exact .inl ⟨d, rfl, refused, by simp [declare, refused]⟩
      | false => exact .inr ⟨d, rfl, refused, by simp [declare, refused]⟩

theorem depth_declared (p : Progress) (line : String) : (b.declared p line).depth = p.depth := by
  obtain ⟨-, same⟩ | ⟨d, -, -, same⟩ | ⟨d, -, -, same⟩ := b.declared_cases p line
  · rw [same]
  · rw [same]
  · rw [same]
    by_cases scope : d.kind.isScope <;> simp [scope, Progress.enter, Progress.depth_attach]

/-- A line adds its node at the end of the forest, inside the scopes that were open before it. -/
theorem lineage_forest_declared (p : Progress) (line : String) :
    Forest.lineage Node.entry [] (b.declared p line).forest =
      Forest.lineage Node.entry [] p.forest ++ ((b.taken p line).map (p.path, ·)).toList := by
  obtain ⟨silent, same⟩ | ⟨d, found, refused, same⟩ | ⟨d, found, accepted, same⟩ :=
    b.declared_cases p line
  · rw [same, b.taken_of_none silent]
    simp
  · have unchanged : (b.declared p line).forest = p.forest := by
      rw [same]
      exact Progress.forest_congr rfl rfl
    rw [unchanged, b.taken_of_refused found refused]
    simp
  · let node := Node.leaf d.kind d.name p.stats.linesScanned d.column
    have placed : (b.declared p line).forest = (p.attach node).forest := by
      rw [same]
      by_cases scope : d.kind.isScope
      · simp only [scope, if_true]
        rw [← p.forest_enter node (b.anchor p line)]
        exact Progress.forest_congr rfl rfl
      · simp only [scope]
        exact Progress.forest_congr rfl rfl
    have alone : node.lineage Node.entry p.path = [(p.path, p.stats.linesScanned, d)] := rfl
    rw [placed, Progress.lineage_forest_attach, alone, b.taken_of_accepted found accepted]
    rfl

/-- The scopes open once a line is taken in: its own, if it opens one, inside those before. -/
theorem marks_declared (p : Progress) (line : String) :
    (b.declared p line).marks =
      ((b.taken p line).toList.filter (·.2.kind.isScope)).map (·, b.anchor p line) ++ p.marks := by
  obtain ⟨silent, same⟩ | ⟨d, found, refused, same⟩ | ⟨d, found, accepted, same⟩ :=
    b.declared_cases p line
  · rw [same, b.taken_of_none silent]
    rfl
  · rw [same, b.taken_of_refused found refused]
    rfl
  · rw [same, b.taken_of_accepted found accepted]
    let node := Node.leaf d.kind d.name p.stats.linesScanned d.column
    by_cases scope : d.kind.isScope
    · simp only [scope, if_true, Option.toList_some, List.filter_cons]
      exact p.marks_enter node (b.anchor p line)
    · simp only [scope, Option.toList_some, List.filter_cons]
      exact p.marks_attach node

theorem path_declared (p : Progress) (line : String) :
    (b.declared p line).path = p.path ++ (b.taken p line).toList.filter (·.2.kind.isScope) := by
  unfold Progress.path
  rw [b.marks_declared]
  cases b.taken p line with
  | none => simp
  | some e => by_cases scope : e.2.kind.isScope <;> simp [scope]

/-- What a line adds stands on that line. -/
theorem line_of_taken {p : Progress} {line : String} {e : Nat × Declaration}
    (taken : e ∈ (b.taken p line).toList) : e.1 = p.stats.linesScanned :=
  fst_of_mem_numbered taken

/-- The counts once a line is taken in. -/
theorem stats_declared (p : Progress) (line : String) :
    (b.declared p line).stats.linesScanned = p.stats.linesScanned ∧
      (b.declared p line).stats.nodes = p.stats.nodes + (b.taken p line).toList.length ∧
      (b.declared p line).stats.duplicatesDropped + (b.taken p line).toList.length =
        p.stats.duplicatesDropped + (b.classifier.classify line).toList.length := by
  obtain ⟨silent, same⟩ | ⟨d, found, refused, same⟩ | ⟨d, found, accepted, same⟩ :=
    b.declared_cases p line
  · simp [same, b.taken_of_none silent, silent]
  · simp [same, b.taken_of_refused found refused, found]
  · simp [same, b.taken_of_accepted found accepted, found]

/-! ## The whole line -/

theorem step_eq (p : Progress) (line : String) :
    b.step p line =
      let closed := b.close (b.declared p line) line
      { closed with stats := { closed.stats with linesScanned := closed.stats.linesScanned + 1 } } :=
  rfl

/-- What counting braces and closing a scope both keep, the end of a line keeps. -/
theorem close_keeps {P : Progress → Prop} (count : ∀ q depth, P q → P { q with depth })
    (leave : ∀ q, P q → P q.leave) (line : String) {p : Progress} (before : P p) :
    P (b.close p line) := by
  unfold close
  split
  · exact Progress.leaveWhile_keeps leave _ (count p _ before)
  · split
    · exact before
    · split
      · exact leave p before
      · exact before

theorem stats_close (p : Progress) (line : String) : (b.close p line).stats = p.stats :=
  b.close_keeps (P := fun q => q.stats = p.stats) (fun _ _ same => same)
    (fun q same => q.stats_leave.trans same) line rfl

/-- The end of a line closes scopes and opens none. -/
theorem marks_close_suffix (p : Progress) (line : String) : (b.close p line).marks <:+ p.marks := by
  apply b.close_keeps (P := fun q => q.marks <:+ p.marks) (fun _ _ outer => outer)
  · intro q outer
    rw [Progress.marks_leave]
    exact (List.tail_suffix _).trans outer
  · exact List.suffix_refl _

/-- The scopes open after a line were open before it, but for its own. -/
theorem mem_path_step {p : Progress} {line : String} {e : Nat × Declaration}
    (member : e ∈ (b.step p line).path) :
    e ∈ p.path ∨ (e ∈ (b.taken p line).toList ∧ e.2.kind.isScope = true) := by
  have open_scope : e ∈ (b.close (b.declared p line) line).path := member
  rw [Progress.path, List.mem_reverse] at open_scope
  obtain ⟨mark, left_open, rfl⟩ := List.mem_map.1 open_scope
  have declared : mark.1 ∈ (b.declared p line).path := by
    rw [Progress.path, List.mem_reverse]
    exact List.mem_map_of_mem ((b.marks_close_suffix _ line).subset left_open)
  rw [b.path_declared, List.mem_append, List.mem_filter] at declared
  exact declared

theorem forest_close (p : Progress) (line : String) : (b.close p line).forest = p.forest := by
  have count : ∀ (q : Progress) (depth : Int), q.forest = p.forest →
      Progress.forest { q with depth } = p.forest := by
    intro q depth same
    rw [← same]
    exact Progress.forest_congr rfl rfl
  exact b.close_keeps (P := fun q => q.forest = p.forest) count
    (fun q same => q.forest_leave.trans same) line rfl

theorem lineage_forest_step (p : Progress) (line : String) :
    Forest.lineage Node.entry [] (b.step p line).forest =
      Forest.lineage Node.entry [] p.forest ++ ((b.taken p line).map (p.path, ·)).toList := by
  have same : (b.step p line).forest = (b.close (b.declared p line) line).forest :=
    Progress.forest_congr rfl rfl
  rw [same, b.forest_close, b.lineage_forest_declared]

/-- A node lies where it did before the line, or it is the line's own and lies in the scopes open before. -/
theorem mem_lineage_step {p : Progress} {line : String} {above : List (Nat × Declaration)} {e : Nat × Declaration}
    (member : (above, e) ∈ Forest.lineage Node.entry [] (b.step p line).forest) :
    (above, e) ∈ Forest.lineage Node.entry [] p.forest ∨ (above = p.path ∧ e ∈ (b.taken p line).toList) := by
  rw [b.lineage_forest_step, Option.toList_map] at member
  rcases List.mem_append.1 member with earlier | own
  · exact .inl earlier
  · obtain ⟨e', taken, same⟩ := List.mem_map.1 own
    obtain ⟨rfl, rfl⟩ := Prod.mk.inj same
    exact .inr ⟨rfl, taken⟩

theorem entries_forest_step (p : Progress) (line : String) :
    Forest.entries (b.step p line).forest = Forest.entries p.forest ++ (b.taken p line).toList := by
  unfold Forest.entries
  rw [← Forest.map_snd_lineage Node.entry [], ← Forest.map_snd_lineage Node.entry [],
    b.lineage_forest_step]
  cases b.taken p line <;> simp

theorem stats_step (p : Progress) (line : String) :
    (b.step p line).stats.linesScanned = p.stats.linesScanned + 1 ∧
      (b.step p line).stats.nodes = p.stats.nodes + (b.taken p line).toList.length ∧
      (b.step p line).stats.duplicatesDropped + (b.taken p line).toList.length =
        p.stats.duplicatesDropped + (b.classifier.classify line).toList.length := by
  simpa only [b.step_eq, b.stats_close, Nat.add_right_cancel_iff] using b.stats_declared p line

/-- Counting braces, a line closes the innermost scopes whose anchor the depth has come back to. -/
theorem step_of_braceDepth (brace : b.nesting = .braceDepth) (p : Progress) (line : String) :
    (b.step p line).depth = p.depth + braceDelta line ∧
      (b.step p line).marks =
        (b.declared p line).marks.dropWhile (p.depth + braceDelta line ≤ ·.2) := by
  let counted : Progress := { b.declared p line with depth := p.depth + braceDelta line }
  have closed : b.close (b.declared p line) line =
      counted.leaveWhile (p.depth + braceDelta line ≤ ·) := by
    simp only [close, brace, b.depth_declared, counted]
  have marks : (b.step p line).marks = (b.close (b.declared p line) line).marks := rfl
  rw [marks, b.step_eq, closed]
  exact ⟨counted.depth_leaveWhile _, counted.marks_leaveWhile _⟩

/-- By indentation, a line with a `}` closes the innermost scope if it is indented like it, and the depth
is not looked at. -/
theorem step_of_indentation (indentation : b.nesting = .indentation) (p : Progress) (line : String) :
    (b.step p line).depth = p.depth ∧
      (b.step p line).marks =
        let marks := (b.declared p line).marks
        if '}' ∈ line.toList ∧ marks.head?.map (·.2) = some (indentOf line : Int) then marks.tail
        else marks := by
  have depth : (b.step p line).depth = (b.close (b.declared p line) line).depth := rfl
  have marks : (b.step p line).marks = (b.close (b.declared p line) line).marks := rfl
  rw [depth, marks, ← b.depth_declared p line]
  cases opened : (b.declared p line).scopes with
  | nil => simp [close, indentation, opened, Progress.marks]
  | cons top outer =>
      have innermost : (b.declared p line).marks.head?.map (·.2) = some top.anchor := by
        simp [Progress.marks, opened]
      simp only [close, indentation, opened, innermost, List.contains_iff_mem, Option.some.injEq]
      split
      · exact ⟨Progress.depth_leave _, Progress.marks_leave _⟩
      · exact ⟨rfl, rfl⟩

theorem run_concat (lines : List String) (line : String) :
    b.run (lines ++ [line]) = b.step (b.run lines) line := by
  simp [run]

end Builder

end CodeOutline
