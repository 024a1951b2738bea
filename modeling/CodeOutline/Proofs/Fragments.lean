import CodeOutline.Proofs.SiblingNames

/-!
# Proofs.Fragments — fragments of a text that leave no scope open can be outlined one by one

After a fragment that leaves no scope open the finished roots are there, the counts are what they are, and
the brace depth may be any number: a stray `}` takes it below zero for the rest of the text. `Progress.after`
puts a build after such a one, with its lines moved down, its depth and anchors moved by the depth it starts
at, and its counts added. Each operation on a build commutes with this (`attach_after`, `leave_after`,
`leaveWhile_after`), because a scope closes by how its anchor compares with the depth, and both are moved
alike. By indentation the depth never leaves 0, so nothing is moved there.

The roots that are there already matter to one thing only: when repeated names are dropped, a root may be
refused on their account. If no root of the second fragment has such a name none is, and the builds of the
fragments make up the build of the whole (`run_append_of_closed`).
-/

namespace CodeOutline

set_option autoImplicit false

open CodeOutline.Line

/-- Counts are added one by one. -/
instance : Add Stats where
  add s t :=
    { linesScanned := s.linesScanned + t.linesScanned
      nodes := s.nodes + t.nodes
      duplicatesDropped := s.duplicatesDropped + t.duplicatesDropped
      unclosedScopes := s.unclosedScopes + t.unclosedScopes }

mutual

def Node.moveDown (k : Nat) : Node → Node
  | ⟨kind, n, l, c, cs⟩ => ⟨kind, n, k + l, c, Forest.moveDown k cs⟩

def Forest.moveDown (k : Nat) : List Node → List Node
  | [] => []
  | n :: ns => n.moveDown k :: Forest.moveDown k ns

end

section MoveDown

variable (k : Nat)

theorem Forest.moveDown_eq_map (ns : List Node) : Forest.moveDown k ns = ns.map (Node.moveDown k) := by
  induction ns with
  | nil => rfl
  | cons n ns ih => rw [Forest.moveDown, List.map_cons, ih]

@[simp] theorem Node.name_moveDown (n : Node) : (n.moveDown k).name = n.name := by
  cases n; rfl

theorem Node.children_moveDown (n : Node) : (n.moveDown k).children = n.children.map (Node.moveDown k) := by
  cases n
  exact Forest.moveDown_eq_map k _

theorem Node.moveDown_push (n child : Node) :
    (n.push child).moveDown k = (n.moveDown k).push (child.moveDown k) := by
  obtain ⟨kind, name, l, c, cs⟩ := n
  simp [Node.push, Node.moveDown, Forest.moveDown_eq_map]

end MoveDown

namespace Progress

/-- A build put after another one, which leaves no scope open. -/
def after (p base : Progress) : Progress where
  roots := base.roots ++ p.roots.map (Node.moveDown base.stats.linesScanned)
  scopes := p.scopes.map fun s => ⟨s.node.moveDown base.stats.linesScanned, base.depth + s.anchor⟩
  depth := base.depth + p.depth
  stats := base.stats + p.stats

variable (base p : Progress)

theorem empty_after (closed : base.scopes = []) : Progress.after {} base = base := by
  obtain ⟨roots, scopes, depth, stats⟩ := base
  obtain rfl : scopes = [] := closed
  simp only [after, List.map_nil, List.append_nil, Int.add_zero]
  rfl

theorem attach_after (n : Node) :
    (p.after base).attach (n.moveDown base.stats.linesScanned) = (p.attach n).after base := by
  cases opened : p.scopes with
  | nil => simp [attach, after, opened]
  | cons top outer => simp [attach, after, opened, Node.moveDown_push]

theorem leave_after : (p.after base).leave = p.leave.after base := by
  cases opened : p.scopes with
  | nil => simp [leave, after, opened]
  | cons top outer =>
      have around := attach_after base { p with scopes := outer } top.node
      simp only [leave, opened, ← around]
      simp only [after, opened, List.map_cons]

/-- Scopes close alike if those with moved anchors close as the others do. -/
theorem leaveWhile_after {closes closes' : Int → Bool}
    (same : ∀ a, closes' (base.depth + a) = closes a) :
    (p.after base).leaveWhile closes' = (p.leaveWhile closes).after base := by
  have count : (p.after base).scopes.length = p.scopes.length := by simp [after]
  unfold leaveWhile
  rw [count]
  generalize p.scopes.length = count
  induction count generalizing p with
  | zero => rfl
  | succ count ih =>
      cases opened : p.scopes with
      | nil => simp [leaveUpTo, after, opened]
      | cons top outer =>
          have moved : (p.after base).scopes =
              ⟨top.node.moveDown base.stats.linesScanned, base.depth + top.anchor⟩ ::
                outer.map fun s => ⟨s.node.moveDown base.stats.linesScanned, base.depth + s.anchor⟩ := by
            simp [after, opened]
          simp only [leaveUpTo, opened, moved, same]
          split
          · rw [leave_after]
            exact ih p.leave (by simp [after])
          · rfl

theorem forest_after :
    (p.after base).forest = base.roots ++ Forest.moveDown base.stats.linesScanned p.forest := by
  have closed : (p.after base).leaveWhile (fun _ => true) = (p.leaveWhile fun _ => true).after base :=
    leaveWhile_after base p fun _ => rfl
  rw [forest, closed, Forest.moveDown_eq_map]
  rfl

end Progress

namespace Builder

open Forest Progress

variable {b : Builder} {base p : Progress} {line : String}

/-- By indentation, no brace is counted. -/
theorem depth_run_of_indentation (indentation : b.nesting = .indentation) (lines : List String) :
    (b.run lines).depth = 0 := by
  induction lines using List.reverseRecOn with
  | nil => rfl
  | append_singleton lines line ih =>
      rw [b.run_concat, (b.step_of_indentation indentation _ line).1, ih]

/-- A name is refused on account of the roots that are there already, or as it would be without them. -/
theorem refuses_after {name : String}
    (fresh : b.duplicates = .dropRepeated → p.scopes = [] → b.refuses p name = false →
      ∀ m ∈ base.roots, m.name ≠ name) :
    b.refuses (p.after base) name = b.refuses p name := by
  cases policy : b.duplicates with
  | keep => simp [refuses, policy]
  | dropRepeated =>
      cases opened : p.scopes with
      | cons top outer =>
          simp [refuses, policy, siblings, after, opened, Node.children_moveDown, Function.comp_def]
      | nil =>
          have split : b.refuses (p.after base) name =
              (base.roots.any (·.name == name) || b.refuses p name) := by
            simp [refuses, policy, siblings, after, opened, Function.comp_def]
          rw [split]
          cases refused : b.refuses p name with
          | true => exact Bool.or_true _
          | false =>
              have free := fresh policy opened refused
              simpa using free

theorem declared_after (level : b.nesting = .indentation → base.depth = 0)
    (refuses : ∀ d, b.classifier.classify line = some d →
      b.refuses (p.after base) d.name = b.refuses p d.name) :
    b.declared (p.after base) line = (b.declared p line).after base := by
  have anchor : b.anchor (p.after base) line = base.depth + b.anchor p line := by
    unfold Builder.anchor
    cases way : b.nesting with
    | braceDepth => rfl
    | indentation => simp [level way]
  unfold declared
  cases found : b.classifier.classify line with
  | none => rfl
  | some d =>
      simp only [declare, refuses d found, anchor]
      split
      · rfl
      · let node := Node.leaf d.kind d.name p.stats.linesScanned d.column
        split
        · rfl
        · have moved : Node.leaf d.kind d.name (p.after base).stats.linesScanned d.column =
              node.moveDown base.stats.linesScanned := rfl
          rw [moved, attach_after]
          rfl

theorem close_after (level : b.nesting = .indentation → base.depth = 0) :
    b.close (p.after base) line = (b.close p line).after base := by
  cases way : b.nesting with
  | braceDepth =>
      let counted : Progress := { p with depth := p.depth + braceDelta line }
      have depth : (p.after base).depth + braceDelta line = base.depth + counted.depth :=
        Int.add_assoc _ _ _
      have same : ∀ a, decide (base.depth + counted.depth ≤ base.depth + a) =
          decide (counted.depth ≤ a) := by
        intro a
        rw [decide_eq_decide]
        omega
      simp only [close, way, depth]
      exact leaveWhile_after base counted same
  | indentation =>
      cases opened : p.scopes with
      | nil => simp [close, way, after, opened]
      | cons top outer =>
          have moved : (p.after base).scopes =
              ⟨top.node.moveDown base.stats.linesScanned, top.anchor⟩ ::
                outer.map fun s => ⟨s.node.moveDown base.stats.linesScanned, base.depth + s.anchor⟩ := by
            simp [after, opened, level way]
          simp only [close, way, moved, opened]
          split
          · exact leave_after base p
          · rfl

/-- A line does to a build put after another one what it does to that build. -/
theorem step_after (level : b.nesting = .indentation → base.depth = 0)
    (refuses : ∀ d, b.classifier.classify line = some d →
      b.refuses (p.after base) d.name = b.refuses p d.name) :
    b.step (p.after base) line = (b.step p line).after base := by
  rw [b.step_eq, b.step_eq, declared_after level refuses, close_after level]
  rfl

/-- The build of a whole is the builds of its parts, one after the other: the first leaves no scope open, and
if repeated names are dropped, no root of the second has the name of a root of the first. -/
theorem run_append_of_closed {lines more : List String} (closed : (b.run lines).scopes = [])
    (fresh : b.duplicates = .dropRepeated →
      ∀ e, ([], e) ∈ lineage Node.entry [] (b.run more).forest →
        ∀ m ∈ (b.run lines).roots, m.name ≠ e.2.name) :
    b.run (lines ++ more) = (b.run more).after (b.run lines) := by
  induction more using List.reverseRecOn with
  | nil =>
      rw [List.append_nil]
      exact (empty_after _ closed).symm
  | append_singleton more line ih =>
      rw [b.run_concat, b.lineage_forest_step] at fresh
      have earlier := ih fun drop e member => fresh drop e (List.mem_append_left _ member)
      rw [← List.append_assoc, b.run_concat, b.run_concat, earlier]
      refine step_after (fun indentation => depth_run_of_indentation indentation lines) fun d found => ?_
      apply refuses_after
      intro drop none_open accepted
      have path : (b.run more).path = [] := by simp [Progress.path, marks, none_open]
      have root : ([], (b.run more).stats.linesScanned, d) ∈
          ((b.taken (b.run more) line).map ((b.run more).path, ·)).toList := by
        rw [b.taken_of_accepted found accepted, path]
        simp
      exact fresh drop _ (List.mem_append_right _ root)

/-- **Fragments that leave no scope open make up the whole.** Whatever the brace depth after the first one,
its roots are followed by those of the second, moved down by as many lines as the first has, and the counts
are added. When repeated names are dropped, this needs roots with other names in the second. -/
theorem build_append_of_closed (b : Builder) (lines more : List String) (revision : UInt64)
    (closed : (b.build lines revision).stats.unclosedScopes = 0)
    (fresh : b.duplicates = .dropRepeated →
      ∀ n ∈ (b.build more revision).roots, ∀ m ∈ (b.build lines revision).roots, n.name ≠ m.name) :
    (b.build (lines ++ more) revision).roots =
        (b.build lines revision).roots ++ moveDown lines.length (b.build more revision).roots ∧
      (b.build (lines ++ more) revision).stats =
        (b.build lines revision).stats + (b.build more revision).stats := by
  have none_open : (b.run lines).scopes = [] := List.eq_nil_of_length_eq_zero closed
  have first : (b.build lines revision).roots = (b.run lines).roots := forest_of_no_scope none_open
  have scanned : (b.run lines).stats.linesScanned = lines.length := (tally_run lines).scanned
  have whole : b.run (lines ++ more) = (b.run more).after (b.run lines) := by
    apply run_append_of_closed none_open
    intro drop e member m known
    obtain ⟨n, root, rfl⟩ := exists_under_of_mem_lineage member
    rw [first] at fresh
    exact (fresh drop n root m known).symm
  constructor
  · have forest := forest_after (b.run lines) (b.run more)
    rw [← whole, scanned, ← first] at forest
    exact forest
  · have count : (b.run (lines ++ more)).scopes.length =
        (b.run lines).scopes.length + (b.run more).scopes.length := by
      rw [whole, none_open]
      simp [after]
    simp only [build, count]
    rw [whole]
    rfl

/-- Two stray braces leave the first fragment at a depth of -2; the function after it holds its variable and
closes all the same. -/
theorem build_append_of_closed_past_stray_braces :
    let b : Builder := ⟨.standard .omit, .braceDepth, .dropRepeated⟩
    let lines := ["\x7d", "class A \x7b", "\x7d \x7d"]
    let more := ["function run() \x7b", "  let x = 2", "\x7d", "let y = 3"]
    (b.run lines).depth = -2 ∧
      (b.build (lines ++ more) 0).roots =
        [.leaf .classDecl "A" 1 none, ⟨.functionDecl, "run", 3, none, [.leaf .variableDecl "x" 4 none]⟩,
          .leaf .variableDecl "y" 6 none] ∧
      (b.build (lines ++ more) 0).stats = (b.build lines 0).stats + (b.build more 0).stats := by
  intro b lines more
  have closed : (b.build lines 0).stats.unclosedScopes = 0 := by decide +kernel
  have fresh : ∀ n ∈ (b.build more 0).roots, ∀ m ∈ (b.build lines 0).roots, n.name ≠ m.name := by
    decide +kernel
  obtain ⟨roots, stats⟩ := build_append_of_closed b lines more 0 closed fun _ => fresh
  refine ⟨by decide +kernel, ?_, stats⟩
  rw [roots]
  decide +kernel

end Builder

end CodeOutline
