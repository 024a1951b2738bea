import CodeOutline.Proofs.Progress

/-!
# Proofs.Lockstep — two builds side by side

Two builds are alike (`Progress.Alike`) when they have the same roots, the same open scopes and the same
counts, up to a change of the columns. What their scopes are remembered by is left open, so the two may
differ in the way they nest. As long as they take in the same declarations and close equally many scopes
they stay alike (`declared_alike`, `Alike.leave`), and they end with the same forest (`Alike.forest`). How
many scopes a line closes is read off the anchors alone (`Progress.anchors`).
-/

namespace CodeOutline

set_option autoImplicit false

open CodeOutline.Line

/-- The brace depth grows by one for each `{` and falls by one for each `}`. -/
theorem braceDelta_eq_count (line : String) :
    braceDelta line = line.toList.count '{' - line.toList.count '}' := by
  have folded : ∀ (s : List Char) (d : Int),
      s.foldl (fun d c => if c = '{' then d + 1 else if c = '}' then d - 1 else d) d =
        d + (s.count '{' - s.count '}') := by
    intro s
    induction s with
    | nil => intro d; simp
    | cons c s ih =>
        intro d
        rw [List.foldl_cons, ih, List.count_cons, List.count_cons]
        by_cases opening : c = '{'
        · subst opening
          simp
          omega
        · by_cases closing : c = '}'
          · subst closing
            simp
            omega
          · simp [opening, closing]
  rw [braceDelta, folded]
  omega

mutual

/-- A node and all that it holds, each with the column that `f` gives for its line and its column. -/
def Node.recolumn (f : Nat → Option Nat → Option Nat) : Node → Node
  | ⟨k, n, l, c, cs⟩ => ⟨k, n, l, f l c, Forest.recolumn f cs⟩

def Forest.recolumn (f : Nat → Option Nat → Option Nat) : List Node → List Node
  | [] => []
  | n :: ns => n.recolumn f :: Forest.recolumn f ns

end

section Recolumn

variable (f : Nat → Option Nat → Option Nat)

@[simp] theorem Node.name_recolumn (n : Node) : (n.recolumn f).name = n.name := by
  cases n; rfl

theorem Node.recolumn_push (n child : Node) :
    (n.push child).recolumn f = (n.recolumn f).push (child.recolumn f) := by
  have snoc : ∀ cs : List Node,
      Forest.recolumn f (cs ++ [child]) = Forest.recolumn f cs ++ [child.recolumn f] := by
    intro cs
    induction cs with
    | nil => rfl
    | cons c cs ih => simp only [List.cons_append, Forest.recolumn, ih]
  obtain ⟨k, name, l, c, cs⟩ := n
  simp only [Node.push, Node.recolumn, snoc]

theorem Forest.recolumn_eq_map (ns : List Node) : Forest.recolumn f ns = ns.map (Node.recolumn f) := by
  induction ns with
  | nil => rfl
  | cons n ns ih => rw [Forest.recolumn, List.map_cons, ih]

/-- Columns that are all kept give the same forest. -/
theorem Forest.recolumn_kept (ns : List Node) : Forest.recolumn (fun _ column => column) ns = ns := by
  induction ns using Forest.induct with
  | nil => rfl
  | cons n ns below after =>
      obtain ⟨k, name, l, c, cs⟩ := n
      simp only [Forest.recolumn, Node.recolumn, after]
      rw [show Forest.recolumn (fun _ column => column) cs = cs from below]

end Recolumn

namespace Progress

def anchors (p : Progress) : List Int := p.scopes.map (·.anchor)

theorem anchors_eq_marks (p : Progress) : p.anchors = p.marks.map (·.2) := by
  simp [anchors, marks]

theorem length_anchors (p : Progress) : p.anchors.length = p.scopes.length := by
  simp [anchors]

@[simp] theorem anchors_leave (p : Progress) : p.leave.anchors = p.anchors.tail := by
  rw [anchors_eq_marks, marks_leave, anchors_eq_marks, List.map_tail]

theorem anchors_leaveWhile (p : Progress) (closes : Int → Bool) :
    (p.leaveWhile closes).anchors = p.anchors.dropWhile closes := by
  rw [anchors_eq_marks, marks_leaveWhile, anchors_eq_marks, List.dropWhile_map]
  rfl

/-- Nothing is closed when the innermost scope stays open. -/
theorem leaveWhile_eq_self {p : Progress} {closes : Int → Bool}
    (stays : ∀ a ∈ p.anchors, closes a = false) : p.leaveWhile closes = p := by
  rw [leaveWhile_eq]
  split
  · rfl
  · rename_i top outer opened
    have open_still : closes top.anchor = false := stays _ (by simp [anchors, opened])
    simp [open_still]

/-- One scope is closed when the innermost one closes and those around it stay open. -/
theorem leaveWhile_eq_leave {p : Progress} {closes : Int → Bool} {a : Int} {outer : List Int}
    (opened : p.anchors = a :: outer) (first : closes a = true)
    (stays : ∀ a ∈ outer, closes a = false) : p.leaveWhile closes = p.leave := by
  rw [leaveWhile_eq]
  split
  · rename_i none_open
    simp [anchors, none_open] at opened
  · rename_i top rest stack
    have anchored : top.anchor = a := by
      simp only [anchors, stack, List.map_cons, List.cons.injEq] at opened
      exact opened.1
    rw [anchored, if_pos first]
    apply leaveWhile_eq_self
    rw [anchors_leave, opened]
    exact stays

/-- Two builds with the same nodes, up to their columns, and the same counts. -/
structure Alike (f : Nat → Option Nat → Option Nat) (p q : Progress) : Prop where
  roots : q.roots = p.roots.map (Node.recolumn f)
  nodes : q.scopes.map (·.node) = p.scopes.map (·.node.recolumn f)
  stats : q.stats = p.stats

namespace Alike

variable {f : Nat → Option Nat → Option Nat} {p q : Progress}

theorem length_scopes (alike : Alike f p q) : q.scopes.length = p.scopes.length := by
  simpa using congrArg List.length alike.nodes

/-- In both builds no scope is open, or both have an innermost one. -/
theorem scopes_cases (alike : Alike f p q) :
    (p.scopes = [] ∧ q.scopes = []) ∨
      ∃ s outer t outer', p.scopes = s :: outer ∧ q.scopes = t :: outer' ∧
        t.node = s.node.recolumn f ∧
        outer'.map (·.node) = outer.map (·.node.recolumn f) := by
  have nodes := alike.nodes
  cases left : p.scopes with
  | nil =>
      left
      simpa [left] using nodes
  | cons s outer =>
      right
      cases right : q.scopes with
      | nil => simp [left, right] at nodes
      | cons t outer' =>
          simp only [left, right, List.map_cons, List.cons.injEq] at nodes
          exact ⟨s, outer, t, outer', rfl, rfl, nodes.1, nodes.2⟩

theorem siblings (alike : Alike f p q) : q.siblings = p.siblings.map (Node.recolumn f) := by
  obtain ⟨left, right⟩ | ⟨s, outer, t, outer', left, right, node, -⟩ := alike.scopes_cases
  · simp only [Progress.siblings, left, right, alike.roots]
  · simp only [Progress.siblings, left, right, node]
    rw [← Forest.recolumn_eq_map]
    cases s.node; rfl

theorem attach (alike : Alike f p q) (n : Node) :
    Alike f (p.attach n) (q.attach (n.recolumn f)) := by
  obtain ⟨left, right⟩ | ⟨s, outer, t, outer', left, right, node, nodes⟩ := alike.scopes_cases
  · simp only [Progress.attach, left, right]
    exact ⟨by simp [alike.roots], by simp, alike.stats⟩
  · simp only [Progress.attach, left, right]
    refine ⟨alike.roots, ?_, alike.stats⟩
    simp [node, nodes, Node.recolumn_push]

/-- A scope that both open may be remembered by different anchors. -/
theorem enter (alike : Alike f p q) (n : Node) (anchor anchor' : Int) :
    Alike f (p.enter n anchor) (q.enter (n.recolumn f) anchor') :=
  ⟨alike.roots, by simp [Progress.enter, alike.nodes], alike.stats⟩

theorem leave (alike : Alike f p q) : Alike f p.leave q.leave := by
  obtain ⟨left, right⟩ | ⟨s, outer, t, outer', left, right, node, nodes⟩ := alike.scopes_cases
  · simpa only [Progress.leave, left, right] using alike
  · simp only [Progress.leave, left, right, node]
    have around : Alike f { p with scopes := outer } { q with scopes := outer' } :=
      ⟨alike.roots, nodes, alike.stats⟩
    exact around.attach s.node

/-- Depths do not matter. -/
theorem counted (alike : Alike f p q) (depth depth' : Int) :
    Alike f { p with depth } { q with depth := depth' } :=
  ⟨alike.roots, alike.nodes, alike.stats⟩

/-- Builds with the same anchors close the same scopes. -/
theorem leaveWhile (alike : Alike f p q) (anchors : q.anchors = p.anchors) (closes : Int → Bool) :
    Alike f (p.leaveWhile closes) (q.leaveWhile closes) := by
  unfold Progress.leaveWhile
  rw [alike.length_scopes]
  generalize p.scopes.length = count
  induction count generalizing p q with
  | zero => exact alike
  | succ count ih =>
      obtain ⟨left, right⟩ | ⟨s, outer, t, outer', left, right, -, -⟩ := alike.scopes_cases
      · simpa only [leaveUpTo, left, right] using alike
      · have anchored : t.anchor = s.anchor := by
          simp only [Progress.anchors, left, right, List.map_cons, List.cons.injEq] at anchors
          exact anchors.1
        simp only [leaveUpTo, left, right, anchored]
        split
        · refine ih alike.leave ?_
          rw [anchors_leave, anchors_leave, anchors]
        · exact alike

theorem forest (alike : Alike f p q) : q.forest = Forest.recolumn f p.forest := by
  induction count : p.scopes.length generalizing p q with
  | zero =>
      have left : p.scopes = [] := List.eq_nil_of_length_eq_zero count
      have right : q.scopes = [] :=
        List.eq_nil_of_length_eq_zero (alike.length_scopes.trans count)
      rw [forest_of_no_scope left, forest_of_no_scope right, alike.roots, Forest.recolumn_eq_map]
  | succ count ih =>
      rw [← forest_leave p, ← forest_leave q]
      refine ih alike.leave ?_
      rw [length_scopes_leave]
      omega

end Alike

end Progress

namespace Builder

open Progress

def opens (b : Builder) (p : Progress) (line : String) : Bool :=
  (b.taken p line).any (·.2.kind.isScope)

/-- Once a line is taken in, its own anchor stands before the others if it opens a scope. -/
theorem anchors_declared (b : Builder) (p : Progress) (line : String) :
    (b.declared p line).anchors =
      if b.opens p line then b.anchor p line :: p.anchors else p.anchors := by
  rw [anchors_eq_marks, b.marks_declared, anchors_eq_marks, opens]
  cases b.taken p line with
  | none => rfl
  | some e => by_cases scope : e.2.kind.isScope <;> simp [scope]

theorem opens_eq_false_of_leaf (b : Builder) (p : Progress) {line : String}
    (leaf : ∀ d, b.classifier.classify line = some d → d.kind.isScope = false) :
    b.opens p line = false := by
  unfold opens taken
  cases found : b.classifier.classify line with
  | none => rfl
  | some d => cases refused : b.refuses p d.name <;> simp [Option.filter_some, refused, leaf d found]

section Alike

variable {b b' : Builder} {f : Nat → Option Nat → Option Nat} {p q : Progress} {line line' : String}

/-- A declaration that both builds find, up to its column, is refused by both or taken in by both. -/
theorem declared_alike (alike : Alike f p q) (duplicates : b'.duplicates = b.duplicates)
    (found : b'.classifier.classify line' = (b.classifier.classify line).map fun d =>
      { d with column := f p.stats.linesScanned d.column }) :
    Alike f (b.declared p line) (b'.declared q line') := by
  have refuses : ∀ name, b'.refuses q name = b.refuses p name := by
    intro name
    simp only [Builder.refuses, duplicates, alike.siblings, List.any_map, Function.comp_def,
      Node.name_recolumn]
  unfold declared
  rw [found]
  cases b.classifier.classify line with
  | none => exact alike
  | some d =>
      simp only [Option.map_some, declare, refuses, alike.stats]
      split
      · exact ⟨alike.roots, alike.nodes, rfl⟩
      · let node := Node.leaf d.kind d.name p.stats.linesScanned d.column
        split
        · have entered := alike.enter node (b.anchor p line) (b'.anchor q line')
          exact ⟨entered.roots, entered.nodes, rfl⟩
        · have attached := alike.attach node
          exact ⟨attached.roots, attached.nodes, rfl⟩

/-- Builds that are alike before a line and after taking it in open a scope on it, both or neither. -/
theorem opens_alike (before : Alike f p q) (after : Alike f (b.declared p line) (b'.declared q line')) :
    b'.opens q line' = b.opens p line := by
  have count := before.length_scopes
  have count' := after.length_scopes
  rw [← length_anchors, ← length_anchors] at count count'
  rw [anchors_declared, anchors_declared] at count'
  cases left : b.opens p line <;> cases right : b'.opens q line' <;> simp [left, right] at count' ⊢ <;> omega

/-- Builds that are alike after what a line closes are alike after the line. -/
theorem step_alike
    (closed : Alike f (b.close (b.declared p line) line) (b'.close (b'.declared q line') line')) :
    Alike f (b.step p line) (b'.step q line') := by
  rw [b.step_eq, b'.step_eq]
  exact ⟨closed.roots, closed.nodes, by simp only [closed.stats]⟩

/-- Builds that are alike at the end give the same outline, up to its columns. -/
theorem build_alike {lines lines' : List String} (revision : UInt64)
    (alike : Alike f (b.run lines) (b'.run lines')) :
    b'.build lines' revision =
      { b.build lines revision with roots := Forest.recolumn f (b.build lines revision).roots } := by
  have forest := alike.forest
  unfold Progress.forest at forest
  simp only [build, forest, alike.stats, alike.length_scopes]

end Alike

end Builder

end CodeOutline
