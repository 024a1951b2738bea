import Mathlib.Algebra.Group.Int.Defs
import CodeOutline.Proofs.Lockstep

/-!
# Proofs.WellIndented — on a well-indented text both ways to nest give the same outline

A well-indented text (`WellIndented`) is made of lines that leave the brace depth alone and of blocks: a
header with one `{`, a text further in, and a closer indented just like the header. Counting braces looks
at none of the indentation, and going by indentation looks at no brace but the `}` of a closer. That they
close the same scopes at the same lines is shown on the two stacks of anchors. While a text stands inside
a header (`Level`), every anchor of the one build is below the depth, and every anchor of the other is at
most the indentation of the header. A line or a block that starts there brings both stacks back to what
they were (`Back`), whether it opened a scope, was refused one, or declared none.
-/

namespace CodeOutline

set_option autoImplicit false

open CodeOutline.Line

namespace Line.Classifier

def DeclaresLeaf (c : Classifier) (line : String) : Prop :=
  ∀ d, c.classify line = some d → d.kind.isScope = false

instance (c : Classifier) (line : String) : Decidable (c.DeclaresLeaf line) :=
  match found : c.classify line with
  | none => isTrue fun d h => by simp [found] at h
  | some d =>
      decidable_of_iff (d.kind.isScope = false)
        ⟨fun h d' same => by cases found.symm.trans same; exact h, fun h => h d found⟩

end Line.Classifier

/-- A line further in than the header it stands under; under no header every line is. -/
def Deeper (header : Option Nat) (line : String) : Prop := ∀ i ∈ header, i < indentOf line

instance (header : Option Nat) (line : String) : Decidable (Deeper header line) :=
  match header with
  | none => isTrue nofun
  | some i => decidable_of_iff (i < indentOf line) ⟨fun h _ same => by cases same; exact h, fun h => h i rfl⟩

/-- The texts whose indentation shows their blocks, under a header of some indentation or under none. -/
inductive WellIndented (c : Classifier) : Option Nat → List String → Prop where
  | nil {header : Option Nat} : WellIndented c header []
  /-- A line that opens and closes nothing, or closes what it opens. -/
  | flat {header : Option Nat} {line : String} {rest : List String} (even : braceDelta line = 0)
      (inside : ('}' ∉ line.toList ∧ c.DeclaresLeaf line) ∨ ('}' ∈ line.toList ∧ Deeper header line))
      (later : WellIndented c header rest) : WellIndented c header (line :: rest)
  | block {header : Option Nat} {first last : String} {body rest : List String}
      (opening : first.toList.count '{' = 1 ∧ '}' ∉ first.toList) (deeper : Deeper header first)
      (inner : WellIndented c (some (indentOf first)) body)
      (closing : braceDelta last = -1) (leaf : c.DeclaresLeaf last)
      (aligned : indentOf last = indentOf first)
      (later : WellIndented c header rest) : WellIndented c header (first :: body ++ last :: rest)

namespace Builder

open Progress

variable (c : Classifier) (duplicates : Duplicates)

def byBraces : Builder := ⟨c, .braceDepth, duplicates⟩

def byIndentation : Builder := ⟨c, .indentation, duplicates⟩

abbrev Same (p q : Progress) : Prop := Alike (fun _ column => column) p q

/-- Two builds under a header: `p` counts braces and `q` goes by indentation. -/
structure Level (header : Option Nat) (p q : Progress) : Prop where
  same : Same p q
  below : ∀ a ∈ p.anchors, a < p.depth
  outside : ∀ a ∈ q.anchors, ∃ i ∈ header, a ≤ (i : Int)

/-- Two builds have come back to the stacks that they had. -/
structure Back (p q p' q' : Progress) : Prop where
  same : Same p' q'
  braces : p'.anchors = p.anchors
  indentation : q'.anchors = q.anchors
  depth : p'.depth = p.depth

variable {header : Option Nat} {p q p' q' : Progress} {line : String}

theorem Back.trans {p'' q'' : Progress} (first : Back p q p' q') (second : Back p' q' p'' q'') :
    Back p q p'' q'' :=
  ⟨second.same, second.braces.trans first.braces, second.indentation.trans first.indentation,
    second.depth.trans first.depth⟩

theorem Level.back (level : Level header p q) (back : Back p q p' q') : Level header p' q' := by
  refine ⟨back.same, ?_, ?_⟩
  · rw [back.braces, back.depth]
    exact level.below
  · rw [back.indentation]
    exact level.outside

/-- No open scope is indented like a line that is further in than the header. -/
theorem Level.anchor_ne (level : Level header p q) (deeper : Deeper header line) :
    ∀ a ∈ q.anchors, a ≠ indentOf line := by
  intro a member
  obtain ⟨i, under, le⟩ := level.outside a member
  have lt := deeper i under
  omega

/-! ## What a line closes -/

section Close

variable (p line)

theorem close_byBraces :
    (byBraces c duplicates).close p line =
      { p with depth := p.depth + braceDelta line }.leaveWhile (p.depth + braceDelta line ≤ ·) := rfl

/-- Going by indentation, nothing is closed by a line without `}`, nor by one that is indented like no
open scope. -/
theorem close_byIndentation_eq_self
    (apart : '}' ∈ line.toList → ∀ a ∈ q.anchors, a ≠ indentOf line) :
    (byIndentation c duplicates).close q line = q := by
  simp only [close, byIndentation]
  split
  · rfl
  · rename_i top outer opened
    have stays : ¬ (line.toList.contains '}' ∧ top.anchor = indentOf line) := by
      rintro ⟨brace, anchored⟩
      exact apart (List.contains_iff_mem.1 brace) top.anchor (by simp [anchors, opened]) anchored
    rw [if_neg stays]

/-- A line with `}` that is indented like the innermost scope closes it. -/
theorem close_byIndentation_eq_leave {outer : List Int} (brace : '}' ∈ line.toList)
    (opened : q.anchors = (indentOf line : Int) :: outer) :
    (byIndentation c duplicates).close q line = q.leave := by
  simp only [close, byIndentation]
  split
  · rename_i none_open
    simp [anchors, none_open] at opened
  · rename_i top rest stack
    have anchored : top.anchor = indentOf line := by
      simp only [anchors, stack, List.map_cons, List.cons.injEq] at opened
      exact opened.1
    rw [if_pos ⟨List.contains_iff_mem.2 brace, anchored⟩]

end Close

/-! ## One line -/

/-- Two builds whose stacks are those of `p` and `q`, with one scope more on each if `opened`: its anchors
are the depth of `p` and the indentation `i`. -/
structure Atop (p q : Progress) (opened : Bool) (i : Nat) (p' q' : Progress) : Prop where
  same : Same p' q'
  braces : p'.anchors = if opened then p.depth :: p.anchors else p.anchors
  indentation : q'.anchors = if opened then (i : Int) :: q.anchors else q.anchors

theorem Atop.back {p'' q'' : Progress} {opened : Bool} {i : Nat} (atop : Atop p q opened i p' q')
    (back : Back p' q' p'' q'') : Atop p q opened i p'' q'' :=
  ⟨back.same, back.braces.trans atop.braces, back.indentation.trans atop.indentation⟩

/-- A line is taken in by both builds alike: both open a scope on it, or neither does. -/
theorem declared_atop (same : Same p q) (line : String) :
    ∃ opened, Atop p q opened (indentOf line) ((byBraces c duplicates).declared p line)
        ((byIndentation c duplicates).declared q line) ∧
      (c.DeclaresLeaf line → opened = false) := by
  have declared : Same ((byBraces c duplicates).declared p line)
      ((byIndentation c duplicates).declared q line) :=
    declared_alike same rfl (by simp [byBraces, byIndentation])
  have opens : (byIndentation c duplicates).opens q line = (byBraces c duplicates).opens p line :=
    opens_alike same declared
  refine ⟨_, ⟨declared, anchors_declared _ p line, ?_⟩, fun leaf => opens_eq_false_of_leaf _ p leaf⟩
  rw [anchors_declared, opens]
  rfl

/-- The line count apart, a line ends where its closing does. -/
theorem Back.step {r t : Progress}
    (back : Back p q ((byBraces c duplicates).close ((byBraces c duplicates).declared r line) line)
      ((byIndentation c duplicates).close ((byIndentation c duplicates).declared t line) line)) :
    Back p q ((byBraces c duplicates).step r line) ((byIndentation c duplicates).step t line) :=
  ⟨step_alike back.same, back.braces, back.indentation, back.depth⟩

/-- A line with `}` that takes the depth back to that of `p` closes the scope that the stacks have more,
and no other, if it is indented like that scope. -/
theorem Atop.close {opened : Bool} (level : Level header p q)
    (atop : Atop p q opened (indentOf line) p' q') (depth : p'.depth + braceDelta line = p.depth)
    (brace : '}' ∈ line.toList) (deeper : Deeper header line) :
    Back p q ((byBraces c duplicates).close p' line) ((byIndentation c duplicates).close q' line) := by
  have apart := level.anchor_ne deeper
  have stays : ∀ a ∈ p.anchors, decide (p.depth ≤ a) = false := by
    intro a member
    have lt := level.below a member
    exact decide_eq_false (by omega)
  have counted : Same { p' with depth := p.depth } q' := atop.same.counted p.depth q'.depth
  rw [close_byBraces, depth]
  cases opened with
  | false =>
      have left : Progress.anchors { p' with depth := p.depth } = p.anchors := atop.braces
      have right : q'.anchors = q.anchors := atop.indentation
      rw [leaveWhile_eq_self (by rw [left]; exact stays),
        close_byIndentation_eq_self c duplicates line fun _ => by rw [right]; exact apart]
      exact ⟨counted, left, right, rfl⟩
  | true =>
      have left : Progress.anchors { p' with depth := p.depth } = p.depth :: p.anchors := atop.braces
      have right : q'.anchors = (indentOf line : Int) :: q.anchors := atop.indentation
      rw [leaveWhile_eq_leave left (by simp) stays, close_byIndentation_eq_leave c duplicates line brace right]
      refine ⟨counted.leave, ?_, ?_, ?_⟩
      · rw [anchors_leave, left, List.tail_cons]
      · rw [anchors_leave, right, List.tail_cons]
      · rw [depth_leave]

/-- A line without `}` closes nothing as long as the depth is above every anchor. -/
theorem close_nothing (same : Same p' q') (no_brace : '}' ∉ line.toList)
    (below : ∀ a ∈ p'.anchors, a < p'.depth + braceDelta line) :
    Back { p' with depth := p'.depth + braceDelta line } q' ((byBraces c duplicates).close p' line)
      ((byIndentation c duplicates).close q' line) := by
  rw [close_byBraces, close_byIndentation_eq_self c duplicates line fun brace => absurd brace no_brace,
    leaveWhile_eq_self]
  · exact ⟨same.counted _ _, rfl, rfl, rfl⟩
  · intro a member
    have lt := below a member
    exact decide_eq_false (by omega)

/-- A line that leaves the depth alone brings both builds back. -/
theorem Level.flat (level : Level header p q) (even : braceDelta line = 0)
    (inside : ('}' ∉ line.toList ∧ c.DeclaresLeaf line) ∨ ('}' ∈ line.toList ∧ Deeper header line)) :
    Back p q ((byBraces c duplicates).step p line) ((byIndentation c duplicates).step q line) := by
  obtain ⟨opened, atop, leaf_closed⟩ := declared_atop c duplicates level.same line
  have depth : ((byBraces c duplicates).declared p line).depth + braceDelta line = p.depth := by
    rw [depth_declared, even, Int.add_zero]
  apply Back.step
  rcases inside with ⟨no_brace, leaf⟩ | ⟨brace, deeper⟩
  · obtain rfl := leaf_closed leaf
    have below : ∀ a ∈ ((byBraces c duplicates).declared p line).anchors,
        a < ((byBraces c duplicates).declared p line).depth + braceDelta line := by
      rw [depth, atop.braces]
      exact level.below
    have back := close_nothing c duplicates atop.same no_brace below
    exact ⟨back.same, back.braces.trans atop.braces, back.indentation.trans atop.indentation,
      back.depth.trans depth⟩
  · exact atop.close c duplicates level depth brace deeper

/-- A header takes both builds one level further in. -/
theorem Level.enter (level : Level header p q)
    (opening : line.toList.count '{' = 1 ∧ '}' ∉ line.toList) (deeper : Deeper header line) :
    ∃ opened, Atop p q opened (indentOf line) ((byBraces c duplicates).step p line)
        ((byIndentation c duplicates).step q line) ∧
      ((byBraces c duplicates).step p line).depth = p.depth + 1 ∧
      Level (some (indentOf line)) ((byBraces c duplicates).step p line)
        ((byIndentation c duplicates).step q line) := by
  obtain ⟨one, no_brace⟩ := opening
  obtain ⟨opened, atop, -⟩ := declared_atop c duplicates level.same line
  have depth : ((byBraces c duplicates).declared p line).depth + braceDelta line = p.depth + 1 := by
    rw [depth_declared, braceDelta_eq_count, one, List.count_eq_zero.2 no_brace]
    rfl
  have below : ∀ a ∈ ((byBraces c duplicates).declared p line).anchors, a < p.depth + 1 := by
    intro a member
    have around : a ∈ p.anchors → a < p.depth + 1 := fun outer => by
      have lt := level.below a outer
      omega
    rw [atop.braces] at member
    cases opened with
    | false => exact around member
    | true =>
        rcases List.mem_cons.1 member with rfl | member
        · exact Int.lt_succ _
        · exact around member
  have outside : ∀ a ∈ ((byIndentation c duplicates).declared q line).anchors, a ≤ indentOf line := by
    intro a member
    have around : a ∈ q.anchors → a ≤ indentOf line := fun outer => by
      obtain ⟨i, under, le⟩ := level.outside a outer
      have lt := deeper i under
      omega
    rw [atop.indentation] at member
    cases opened with
    | false => exact around member
    | true =>
        rcases List.mem_cons.1 member with rfl | member
        · exact Int.le_refl _
        · exact around member
  have back := (close_nothing c duplicates atop.same no_brace
    (by rw [depth]; exact below)).step
  refine ⟨opened, ⟨back.same, back.braces.trans atop.braces, back.indentation.trans atop.indentation⟩,
    back.depth.trans depth, ⟨back.same, ?_, ?_⟩⟩
  · rw [back.braces, back.depth.trans depth]
    exact below
  · rw [back.indentation]
    exact fun a member => ⟨indentOf line, rfl, outside a member⟩

/-- The closer of a block brings both builds back to where they were before the header. -/
theorem Level.leave (level : Level header p q) {opened : Bool}
    (atop : Atop p q opened (indentOf line) p' q') (depth : p'.depth = p.depth + 1)
    (closing : braceDelta line = -1) (leaf : c.DeclaresLeaf line) (deeper : Deeper header line) :
    Back p q ((byBraces c duplicates).step p' line) ((byIndentation c duplicates).step q' line) := by
  obtain ⟨opened', inner, leaf_closed⟩ :=
    declared_atop c duplicates atop.same line
  obtain rfl := leaf_closed leaf
  have brace : '}' ∈ line.toList := by
    apply List.count_pos_iff.1
    have counted := braceDelta_eq_count line
    omega
  have taken : Atop p q opened (indentOf line) ((byBraces c duplicates).declared p' line)
      ((byIndentation c duplicates).declared q' line) :=
    ⟨inner.same, inner.braces.trans atop.braces, inner.indentation.trans atop.indentation⟩
  refine (taken.close c duplicates level ?_ brace deeper).step
  rw [depth_declared, depth, closing]
  omega

/-! ## A whole text -/

/-- **A well-indented text brings both builds back** to the stacks they had before it. -/
theorem back_of_wellIndented {lines : List String} (text : WellIndented c header lines)
    (level : Level header p q) :
    Back p q (lines.foldl (byBraces c duplicates).step p)
      (lines.foldl (byIndentation c duplicates).step q) := by
  induction text generalizing p q with
  | nil => exact ⟨level.same, rfl, rfl, rfl⟩
  | flat even inside later ih =>
      have line := level.flat c duplicates even inside
      exact line.trans (ih (level.back line))
  | @block header first last body rest opening deeper inner closing leaf aligned later ihBody ihRest =>
      obtain ⟨opened, atop, depth, further⟩ :=
        level.enter c duplicates opening deeper
      have inside := ihBody further
      have reached := atop.back inside
      rw [← aligned] at reached
      have closed := level.leave c duplicates reached (inside.depth.trans depth) closing leaf
        fun i under => aligned ▸ deeper i under
      rw [List.foldl_append, List.foldl_append]
      exact closed.trans (ihRest (level.back closed))

/-- **Both ways to nest agree on every well-indented text,** whatever declares a scope in it and whether
repeated names are dropped. No scope is left open. -/
theorem build_byIndentation_eq_byBraces {c : Classifier} {lines : List String} (text : WellIndented c none lines)
    (duplicates : Duplicates) (revision : UInt64) :
    (⟨c, .indentation, duplicates⟩ : Builder).build lines revision =
        (⟨c, .braceDepth, duplicates⟩ : Builder).build lines revision ∧
      ((⟨c, .braceDepth, duplicates⟩ : Builder).build lines revision).stats.unclosedScopes = 0 := by
  have start : Level none ({} : Progress) {} := ⟨⟨rfl, rfl, rfl⟩, nofun, nofun⟩
  have back := back_of_wellIndented c duplicates text start
  constructor
  · have same : Same ((byBraces c duplicates).run lines) ((byIndentation c duplicates).run lines) := back.same
    have built := build_alike revision same
    rw [Forest.recolumn_kept] at built
    exact built
  · show ((byBraces c duplicates).run lines).scopes.length = 0
    rw [← length_anchors, run, back.braces]
    rfl

/-- A class with a block that is no scope, a function on one line, and a second function of the same name,
which is refused, so that what is in it goes to the class. -/
theorem build_byIndentation_eq_byBraces_of_refused :
    let c := Classifier.standard .matchStart
    let lines := ["class A \x7b", "  if (x) \x7b", "    let y = \x7b\x7d", "  \x7d", "  function f() \x7b \x7d",
      "  function f() \x7b", "    let z = 1", "  \x7d", "\x7d", "let last = 2"]
    let b : Builder := ⟨c, .braceDepth, .dropRepeated⟩
    WellIndented c none lines ∧
      Builder.build ⟨c, .indentation, .dropRepeated⟩ lines 7 = b.build lines 7 ∧
      (b.build lines 7).stats = ⟨10, 5, 1, 0⟩ := by
  intro c lines b
  have branch : WellIndented c (some (indentOf "  if (x) \x7b")) ["    let y = \x7b\x7d"] :=
    .flat (by decide +kernel) (by decide +kernel) .nil
  have second : WellIndented c (some (indentOf "  function f() \x7b")) ["    let z = 1"] :=
    .flat (by decide +kernel) (by decide +kernel) .nil
  have members : WellIndented c (some (indentOf "class A \x7b"))
      ("  if (x) \x7b" :: ["    let y = \x7b\x7d"] ++ "  \x7d" :: "  function f() \x7b \x7d" ::
        ("  function f() \x7b" :: ["    let z = 1"] ++ "  \x7d" :: [])) :=
    .block (by decide +kernel) (by decide +kernel) branch (by decide +kernel) (by decide +kernel)
      (by decide +kernel) <| .flat (by decide +kernel) (by decide +kernel) <|
    .block (by decide +kernel) (by decide +kernel) second (by decide +kernel) (by decide +kernel)
      (by decide +kernel) .nil
  have text : WellIndented c none lines :=
    .block (by decide +kernel) (by decide +kernel) members (by decide +kernel) (by decide +kernel)
      (by decide +kernel) <| .flat (by decide +kernel) (by decide +kernel) .nil
  exact ⟨text, (build_byIndentation_eq_byBraces text .dropRepeated 7).1, by decide +kernel⟩

end Builder

end CodeOutline
