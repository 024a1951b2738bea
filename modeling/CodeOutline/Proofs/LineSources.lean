import Mathlib.Data.List.Infix
import CodeOutline.Navigation
import CodeOutline.Proofs.BraceNesting
import CodeOutline.Proofs.Lockstep

/-!
# Proofs.LineSources — a document, its text and the list of its lines have one outline

The three are cut into lines by rules of their own. A document is cut at eight kinds of break and loses a
`\n` or `\r\n` from the end of a line, a plain text is cut at `\n` and loses every `\r` there, and a list
is cut already and loses both. Where all breaks are `\n` or `\r\n` (`NewlinesOnly`) the first two rules give
the same parts (`map_trimNewline_pieces`). They differ in one thing: what follows the last break is a line of
a document even when it is empty, and none of a plain text (`lines_document`).

That last line is empty, so the builder counts it and does nothing else. It declares nothing, and it closes
no scope: by indentation for want of a brace, and by depth because after any number of lines the depth is
above all that the open scopes are remembered by (`step_of_quiet`, `below_run`).
-/

namespace CodeOutline

set_option autoImplicit false

open CodeOutline.Line CodeOutline.Text LineSource

/-! ## Cutting and trimming -/

namespace Text

/-- Every break of a text is `\n` or `\r\n`: no other `\r` is there, and no other break. -/
def NewlinesOnly (s : List Char) : Prop :=
  ∀ c rest, c :: rest <:+ s → isBreak c = true → c = '\n' ∨ (c = '\r' ∧ rest.head? = some '\n')

instance (s : List Char) : Decidable (NewlinesOnly s) :=
  decidable_of_iff
    (∀ t ∈ s.tails, t.head?.all fun c => isBreak c → c = '\n' ∨ (c = '\r' ∧ t.tail.head? = some '\n'))
    ⟨fun all c rest suffix => of_decide_eq_true (all (c :: rest) ((List.mem_tails _ _).2 suffix)),
      fun all t member => by
        cases t with
        | nil => rfl
        | cons c rest => exact decide_eq_true (all c rest ((List.mem_tails _ _).1 member))⟩

/-- The lines of a text, each with the `\n` that ends it. Nothing follows a last `\n`. -/
def cuts : List Char → List (List Char)
  | [] => []
  | c :: s => if c = '\n' then [c] :: cuts s else onFirst c (cuts s)

/-- The lines of a text without the `\n` or `\r\n` that ends each. A `\r` that no `\n` follows is part of
its line. -/
def textLines (text : String) : List String :=
  (cuts text.toList).map fun l => String.ofList (trimNewline l)

example : textLines "foo\r\nbar\n\nbaz\r" = ["foo", "bar", "", "baz\r"] := by decide

section

variable {c : Char} {s : List Char}

theorem NewlinesOnly.tail (only : NewlinesOnly (c :: s)) : NewlinesOnly s :=
  fun d rest suffix => only d rest (suffix.trans (List.suffix_cons c s))

theorem NewlinesOnly.head (only : NewlinesOnly (c :: s)) (breaks : isBreak c = true) :
    c = '\n' ∨ (c = '\r' ∧ s.head? = some '\n') :=
  only c s (List.suffix_refl _) breaks

theorem trimEnd_cons (p : Char → Bool) :
    trimEnd p (c :: s) = if trimEnd p s = [] ∧ p c then [] else c :: trimEnd p s := by
  simp only [trimEnd, List.reverse_cons, List.dropWhile_append, List.isEmpty_iff, List.reverse_eq_nil_iff]
  by_cases empty : s.reverse.dropWhile p = []
  · by_cases last : p c <;> simp [empty, last]
  · simp [empty]

/-- What is no part of a break stays in front of a line that is trimmed. -/
theorem trimNewline_cons (newline : c ≠ '\n') (carriage : c ≠ '\r') :
    trimNewline (c :: s) = c :: trimNewline s := by
  unfold trimNewline
  rw [List.reverse_cons]
  rcases s.reverse with _ | ⟨d, _ | ⟨e, r⟩⟩
  · simp [newline]
  · by_cases ends : d = '\n' <;> simp [ends, carriage]
  · by_cases ends : d = '\n'
    · by_cases wide : e = '\r' <;> simp [ends, wide]
    · simp [ends]

/-- The end of a line that may be `\n` or `\r` is trimmed in one go or a break at a time. -/
theorem trimEnd_trimNewline (s : List Char) :
    trimEnd (fun c => c == '\n' || c == '\r') (trimNewline s) =
      trimEnd (fun c => c == '\n' || c == '\r') s := by
  unfold trimNewline
  split
  · rename_i r ends
    simp [trimEnd, ends]
  · rename_i r _ ends
    simp [trimEnd, ends]
  · rfl

/-- Two ways to trim lines that agree on two lists of lines agree once more when a character is put in
front of both. -/
theorem map_onFirst_congr {f g : List Char → List Char} (empty : f [] = g [])
    (front : ∀ l m, f l = g m → f (c :: l) = g (c :: m)) {ls ms : List (List Char)}
    (same : ls.map f = ms.map g) : (onFirst c ls).map f = (onFirst c ms).map g := by
  cases ls with
  | nil =>
      obtain rfl : ms = [] := by simpa using same.symm
      simpa [onFirst] using front [] [] empty
  | cons l ls =>
      obtain ⟨m, ms, rfl⟩ : ∃ m ms', ms = m :: ms' := by
        cases ms with
        | nil => simp at same
        | cons m ms => exact ⟨m, ms, rfl⟩
      simp only [List.map_cons, List.cons.injEq] at same
      simp [onFirst, front l m same.1, same.2]

/-- **The parts of a text with no breaks but `\n` and `\r\n`** are the same by either rule. -/
theorem map_trimNewline_pieces (only : NewlinesOnly s) :
    (pieces s).map trimNewline = (fields '\n' s).map (trimEnd (· == '\r')) := by
  fun_induction pieces s with
  | case1 => rfl
  | case2 s ih =>
      have wide : fields '\n' ('\r' :: '\n' :: s) = ['\r'] :: fields '\n' s := by simp [fields, onFirst]
      rw [wide, List.map_cons, List.map_cons, ih only.tail.tail]
      rfl
  | case3 c s single breaks ih =>
      have newline : c = '\n' := by
        rcases only.head breaks with newline | ⟨rfl, next⟩
        · exact newline
        · obtain ⟨rest, rfl⟩ := List.head?_eq_some_iff.1 next
          exact (single rest rfl rfl).elim
      subst newline
      rw [fields, if_pos rfl, List.map_cons, List.map_cons, ih only.tail]
      rfl
  | case4 c s single ordinary ih =>
      have newline : c ≠ '\n' := by rintro rfl; exact ordinary rfl
      have carriage : c ≠ '\r' := by rintro rfl; exact ordinary rfl
      rw [fields, if_neg newline]
      refine map_onFirst_congr (by rfl) (fun l m same => ?_) (ih only.tail)
      simp [trimNewline_cons newline carriage, trimEnd_cons, carriage, same]

/-! ## The last line -/

theorem fields_ne_nil (sep : Char) (s : List Char) : fields sep s ≠ [] := by
  fun_cases fields sep s with
  | case1 => nofun
  | case2 => nofun
  | case3 c s => cases fields sep s <;> simp [onFirst]

/-- Only the empty text has a single part with nothing in it. -/
theorem eq_nil_of_fields {sep : Char} (empty : fields sep s = [[]]) : s = [] := by
  cases s with
  | nil => rfl
  | cons c s =>
      exfalso
      rw [fields] at empty
      split at empty
      · exact fields_ne_nil sep s (List.cons.inj empty).2
      · cases parts : fields sep s <;> simp [parts, onFirst] at empty

/-- A character put in front of a text that is not empty neither fills an empty last part nor empties
one. -/
theorem getLast?_fields_cons {sep : Char} (ink : s ≠ []) :
    (fields sep (c :: s)).getLast? = some [] ↔ (fields sep s).getLast? = some [] := by
  obtain ⟨l, ls, parts⟩ := List.exists_cons_of_ne_nil (fields_ne_nil sep s)
  rw [fields, parts]
  split
  · rw [List.getLast?_cons_cons]
  · cases ls with
    | nil =>
        have filled : l ≠ [] := by
          rintro rfl
          exact ink (eq_nil_of_fields parts)
        simp [onFirst, filled]
    | cons m ls => rw [onFirst, List.getLast?_cons_cons, List.getLast?_cons_cons]

/-- The last part between separators is empty when the text is, or ends with a separator. -/
theorem getLast?_fields_iff (sep : Char) (s : List Char) :
    (fields sep s).getLast? = some [] ↔ s = [] ∨ s.getLast? = some sep := by
  induction s with
  | nil => simp [fields]
  | cons c s ih =>
      cases s with
      | nil => by_cases separates : c = sep <;> simp [fields, separates, onFirst]
      | cons d s =>
          rw [getLast?_fields_cons (List.cons_ne_nil d s), ih, List.getLast?_cons_cons]
          simp

theorem dropLastEmpty_append (ls : List (List Char)) :
    dropLastEmpty ls ++ (if ls.getLast? = some [] then [[]] else []) = ls := by
  unfold dropLastEmpty
  split
  · rename_i last
    exact List.dropLast_append_getLast? [] last
  · exact List.append_nil ls

/-- What a text is cut into, an empty last part left out, from its first character on. -/
theorem dropLastEmpty_fields_cons (sep c : Char) (s : List Char) :
    dropLastEmpty (fields sep (c :: s)) =
      if c = sep then [] :: dropLastEmpty (fields sep s) else onFirst c (dropLastEmpty (fields sep s)) := by
  obtain ⟨l, ls, parts⟩ := List.exists_cons_of_ne_nil (fields_ne_nil sep s)
  rw [fields, parts]
  split
  · by_cases last : (l :: ls).getLast? = some [] <;> simp [dropLastEmpty, List.getLast?_cons_cons, last]
  · cases ls with
    | nil => by_cases empty : l = [] <;> simp [onFirst, dropLastEmpty, empty]
    | cons m ls =>
        by_cases last : (m :: ls).getLast? = some [] <;>
          simp [onFirst, dropLastEmpty, List.getLast?_cons_cons, last]

/-- The lines that a text is cut into are its parts between `\n`, once both are trimmed. -/
theorem map_trimEnd_cuts (s : List Char) :
    (cuts s).map (trimEnd fun c => c == '\n' || c == '\r') = plainLines s := by
  unfold plainLines
  induction s with
  | nil => rfl
  | cons c s ih =>
      rw [cuts, dropLastEmpty_fields_cons]
      by_cases newline : c = '\n'
      · subst newline
        rw [if_pos rfl, if_pos rfl, List.map_cons, List.map_cons, ih]
        rfl
      · rw [if_neg newline, if_neg newline]
        refine map_onFirst_congr (by rfl) (fun l m same => ?_) ih
        simp [trimEnd_cons, same, newline]

end

end Text

/-! ## The lines of the three sources -/

/-- The lines of a document with no breaks but `\n` and `\r\n` are those of its text, and an empty one
where the text is empty or its last line is complete. -/
theorem lines_document (d : Document) (only : NewlinesOnly d.text.toList) :
    lines d = lines d.text ++ if d.text = "" ∨ d.text.toList.getLast? = some '\n' then [""] else [] := by
  have parts : lines d = ((pieces d.text.toList).map trimNewline).map String.ofList := by
    rw [lines_document_eq, List.map_map]
    rfl
  have last : (d.text = "" ∨ d.text.toList.getLast? = some '\n') ↔
      (fields '\n' d.text.toList).getLast? = some [] := by
    rw [getLast?_fields_iff, String.toList_eq_nil_iff]
  rw [parts, map_trimNewline_pieces only, if_congr last rfl rfl]
  nth_rewrite 1 [← dropLastEmpty_append (fields '\n' d.text.toList)]
  rw [List.map_append, List.map_append]
  congr 1
  split <;> rfl

/-- A plain text has the lines of the list that it is cut into. -/
theorem lines_textLines (text : String) : lines (textLines text) = lines text := by
  show lines (textLines text) = (plainLines text.toList).map String.ofList
  rw [lines_list, textLines, List.map_map, ← map_trimEnd_cuts, List.map_map]
  apply List.map_congr_left
  intro l _
  simp [trimEnd_trimNewline]

/-! ## A line that is only counted -/

def Outline.countLine (o : Outline) : Outline :=
  { o with stats := { o.stats with linesScanned := o.stats.linesScanned + 1 } }

namespace Builder

/-- A line that declares nothing and holds no brace. -/
structure Quiet (b : Builder) (line : String) : Prop where
  silent : b.classifier.classify line = none
  without_open : '{' ∉ line.toList
  without_close : '}' ∉ line.toList

variable {b : Builder} {line : String}

/-- A quiet line is counted and changes nothing else, unless the braces before it have left a scope open
whose depth they have come back to. -/
theorem step_of_quiet (quiet : b.Quiet line) {p : Progress}
    (below : b.nesting = .braceDepth → ∀ a ∈ p.anchors, a < p.depth) :
    b.step p line = { p with stats := { p.stats with linesScanned := p.stats.linesScanned + 1 } } := by
  have undeclared : b.declared p line = p := by simp [declared, quiet.silent]
  have unclosed : b.close p line = p := by
    cases nesting : b.nesting with
    | braceDepth =>
        have level : braceDelta line = 0 := by
          rw [braceDelta_eq_count, List.count_eq_zero.2 quiet.without_open, List.count_eq_zero.2 quiet.without_close]
          rfl
        simp only [close, nesting, level, Int.add_zero]
        exact Progress.leaveWhile_eq_self fun a member =>
          decide_eq_false (Int.not_le.2 (below nesting a member))
    | indentation =>
        simp only [close, nesting]
        split
        · rfl
        · simp [quiet.without_close]
  rw [b.step_eq, undeclared, unclosed]

/-- After any number of lines, the depth is above all that the open scopes are remembered by. -/
theorem below_run (brace : b.nesting = .braceDepth) (before : List String) :
    ∀ a ∈ (b.run before).anchors, a < (b.run before).depth := by
  intro a member
  rw [Progress.anchors_eq_marks] at member
  obtain ⟨m, listed, rfl⟩ := List.mem_map.1 member
  exact (nested_run brace before).below m listed

/-- **A quiet line at the end only makes the outline one line longer.** -/
theorem build_concat_of_quiet (quiet : b.Quiet line) (before : List String) (revision : UInt64) :
    b.build (before ++ [line]) revision = (b.build before revision).countLine := by
  have stepped := step_of_quiet quiet (p := b.run before) fun brace => below_run brace before
  have forest : (b.run (before ++ [line])).forest = (b.run before).forest := by
    rw [b.run_concat, stepped]
    exact Progress.forest_congr rfl rfl
  show Outline.mk revision (b.run (before ++ [line])).forest _ = Outline.mk revision (b.run before).forest _
  rw [forest, b.run_concat, stepped]
  rfl

theorem quiet_empty (config : Config) : (ofConfig config).Quiet "" where
  silent := by
    have unfound : standardRules.findSome? (fun r => (r.findInCode "").map (r.kind, ·)) = none := by decide
    show Classifier.classify ⟨standardRules, config.column⟩ "" = none
    rw [Classifier.classify, unfound]
  without_open := by simp
  without_close := by simp

end Builder

/-- The outline of a document with no breaks but `\n` and `\r\n` is that of its text, but for the count of
an empty last line. -/
theorem outlineOf_document {d : Document} (only : NewlinesOnly d.text.toList) (config : Config)
    (revision : UInt64) :
    outlineOf d config revision =
      if d.text = "" ∨ d.text.toList.getLast? = some '\n' then (outlineOf d.text config revision).countLine
      else outlineOf d.text config revision := by
  unfold outlineOf
  rw [lines_document d only]
  split
  · exact Builder.build_concat_of_quiet (Builder.quiet_empty config) (lines d.text) revision
  · rw [List.append_nil]

/-- **A document, its text and the lines of its text have one outline.** When all breaks of the text are
`\n` or `\r\n`, the outlines of the document and of the text have the same roots and the same counts, but
that the document has one more line where the text is empty or ends with `\n`. The outline of any text is
that of the list of its lines. -/
theorem line_sources_agree (d : Document) (config : Config) (revision : UInt64) :
    let whole := outlineOf d config revision
    let plain := outlineOf d.text config revision
    (NewlinesOnly d.text.toList →
      whole.roots = plain.roots ∧
      whole.stats.nodes = plain.stats.nodes ∧
      whole.stats.duplicatesDropped = plain.stats.duplicatesDropped ∧
      whole.stats.unclosedScopes = plain.stats.unclosedScopes ∧
      (d.text ≠ "" ∧ d.text.toList.getLast? ≠ some '\n' →
        whole.stats.linesScanned = plain.stats.linesScanned) ∧
      (d.text = "" ∨ d.text.toList.getLast? = some '\n' →
        whole.stats.linesScanned = plain.stats.linesScanned + 1)) ∧
    plain = outlineOf (textLines d.text) config revision := by
  intro whole plain
  have listed : plain = outlineOf (textLines d.text) config revision :=
    congrArg (Builder.build _ · revision) (lines_textLines d.text).symm
  refine ⟨fun only => ?_, listed⟩
  have same : whole = if _ then plain.countLine else plain := outlineOf_document only config revision
  clear_value whole plain
  by_cases complete : d.text = "" ∨ d.text.toList.getLast? = some '\n'
  · rw [if_pos complete] at same
    subst same
    exact ⟨rfl, rfl, rfl, rfl, fun runs => absurd complete (not_or.2 runs), fun _ => rfl⟩
  · rw [if_neg complete] at same
    subst same
    exact ⟨rfl, rfl, rfl, rfl, fun _ => rfl, fun ends => absurd ends complete⟩

/-- A class whose brace never closes, in a text that ends with `\n`: the document has one line more, and the
class stays open all the same. Without that `\n` the two have equally many lines. -/
theorem line_sources_agree_on_open_class :
    let ended : Document := { text := "class A \x7b\r\n  x = 1;\n" }
    let running : Document := { text := "class A \x7b\r\n  x = 1;" }
    (outlineOf ended {} 7).roots = (outlineOf ended.text {} 7).roots ∧
      (outlineOf ended {} 7).stats = ⟨3, 2, 0, 1⟩ ∧
      (outlineOf ended {} 7).stats.linesScanned = (outlineOf ended.text {} 7).stats.linesScanned + 1 ∧
      (outlineOf running {} 7).roots = (outlineOf running.text {} 7).roots ∧
      (outlineOf running {} 7).stats.linesScanned = (outlineOf running.text {} 7).stats.linesScanned ∧
      outlineOf ended.text {} 7 = outlineOf ["class A \x7b", "  x = 1;"] {} 7 := by
  intro ended running
  obtain ⟨only, only', cut, counts⟩ : NewlinesOnly ended.text.toList ∧ NewlinesOnly running.text.toList ∧
      textLines ended.text = ["class A \x7b", "  x = 1;"] ∧ (outlineOf ended {} 7).stats = ⟨3, 2, 0, 1⟩ := by
    decide +kernel
  have ends : ended.text.toList.getLast? = some '\n' := by decide +kernel
  have runs : running.text ≠ "" ∧ running.text.toList.getLast? ≠ some '\n' := by decide +kernel
  clear_value ended running
  obtain ⟨same, listed⟩ := line_sources_agree ended {} 7
  obtain ⟨same', -⟩ := line_sources_agree running {} 7
  obtain ⟨roots, -, -, -, -, one_more⟩ := same only
  obtain ⟨roots', -, -, -, as_many, -⟩ := same' only'
  rw [cut] at listed
  exact ⟨roots, counts, one_more (.inr ends), roots', as_many runs, listed⟩

end CodeOutline
