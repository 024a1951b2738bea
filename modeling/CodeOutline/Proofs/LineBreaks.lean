import CodeOutline.Proofs.Commands

/-!
# Proofs.LineBreaks — where a clamped place lies in a document, by the break that ends its line

A document is cut at eight breaks and trimmed of two of them. So a line is what stands before its break
(`Cut`), and when the break is neither `\n` nor `\r\n` it is left at the end of the line (`kept`) and counted in
its length. A column that is cut down to that length may then come to stand behind the break, and there the
next line starts. This is the only way to leave a line: a clamped place is on its own line exactly when the
break of the line was taken off, or the column asked for is no further than the break (`clamp_on_line_iff`).
-/

namespace CodeOutline

set_option autoImplicit false

open LineSource

namespace Text

def lineBreaks : List (List Char) :=
  [['\n'], ['\r'], ['\r', '\n'], ['\u000b'], ['\u000c'], ['\u0085'], ['\u2028'], ['\u2029']]

def lineStart (s : List Char) (l : Nat) : Nat := ((pieces s).take l).flatten.length

/-- An offset in characters belongs to a line when it is not before its start, and before the start of the next
line; on the last line also at the end of the text. -/
def OnLine (s : List Char) (offset l : Nat) : Prop :=
  lineStart s l ≤ offset ∧
    (offset < lineStart s (l + 1) ∨ (l + 1 = (pieces s).length ∧ offset = s.length))

/-- A line of a text: what stands before its break, and the break. The last line has none. -/
structure Cut (s : List Char) (l : Nat) (body ending : List Char) : Prop where
  piece : (pieces s)[l]? = some (body ++ ending)
  plain : ∀ c ∈ body, isBreak c = false
  ends : (ending = [] ∧ l + 1 = (pieces s).length) ∨ (ending ∈ lineBreaks ∧ l + 1 < (pieces s).length)

/-- The breaks that are taken off a line; there may be none to take. -/
def Trimmed (ending : List Char) : Prop := ending = [] ∨ ending = ['\n'] ∨ ending = ['\r', '\n']

instance (ending : List Char) : Decidable (Trimmed ending) := inferInstanceAs (Decidable (_ ∨ _))

/-- What is left of the break at the end of a line. -/
def kept (ending : List Char) : List Char := if Trimmed ending then [] else ending

/-! ## Cutting -/

section

variable {s : List Char} {l : Nat} {body ending : List Char}

theorem mem_lineBreaks_of_isBreak {c : Char} (breaks : isBreak c = true) : [c] ∈ lineBreaks := by
  simp only [isBreak, Bool.or_eq_true, beq_iff_eq] at breaks
  rcases breaks with (((((rfl | rfl) | rfl) | rfl) | rfl) | rfl) | rfl <;> decide

/-- The line after a line is a line of what stands after it. -/
theorem Cut.later {first : List Char} {rest : List Char} (cut : Cut rest l body ending)
    (pieces_eq : pieces s = first :: pieces rest) : Cut s (l + 1) body ending where
  piece := by rw [pieces_eq, List.getElem?_cons_succ, cut.piece]
  plain := cut.plain
  ends := by
    rw [pieces_eq, List.length_cons, Nat.add_right_cancel_iff, Nat.add_lt_add_iff_right]
    exact cut.ends

/-- A break makes a line of its own. -/
theorem cut_break {r : List Char} (breaks : ending ∈ lineBreaks)
    (pieces_eq : pieces s = ending :: pieces r) : Cut s 0 [] ending where
  piece := by rw [pieces_eq]; rfl
  plain := nofun
  ends := by
    have some_piece := List.length_pos_iff.2 (pieces_ne_nil r)
    rw [pieces_eq, List.length_cons]
    exact .inr ⟨breaks, by omega⟩

/-- A character that is no break goes in front of the first line and leaves the others alone. -/
theorem Cut.onFirst {c : Char} (cut : Cut s l body ending) (ordinary : isBreak c = false)
    {t : List Char} (pieces_eq : pieces t = Text.onFirst c (pieces s)) :
    Cut t l (if l = 0 then c :: body else body) ending := by
  obtain ⟨p, ps, pieces_s⟩ := List.exists_cons_of_ne_nil (pieces_ne_nil s)
  have piece := cut.piece
  have ends := cut.ends
  rw [pieces_s] at pieces_eq piece ends
  cases l with
  | zero =>
      obtain rfl : p = body ++ ending := by simpa using piece
      refine ⟨by rw [pieces_eq]; rfl, ?_, by rw [pieces_eq]; exact ends⟩
      intro d member
      rcases List.mem_cons.1 member with rfl | member
      · exact ordinary
      · exact cut.plain d member
  | succ l => exact ⟨by rw [pieces_eq]; exact piece, cut.plain, by rw [pieces_eq]; exact ends⟩

/-- **Every line of a text ends in one of the breaks and has no other,** and the last line has none at all. -/
theorem exists_cut (inside : l < (pieces s).length) : ∃ body ending, Cut s l body ending := by
  fun_induction pieces s generalizing l with
  | case1 =>
      obtain rfl : l = 0 := by simpa using inside
      exact ⟨[], [], rfl, fun c member => absurd member List.not_mem_nil, .inl ⟨rfl, rfl⟩⟩
  | case2 s ih =>
      cases l with
      | zero => exact ⟨[], _, cut_break (r := s) (by decide) rfl⟩
      | succ l =>
          obtain ⟨body, ending, cut⟩ := ih (Nat.lt_of_succ_lt_succ inside)
          exact ⟨body, ending, cut.later rfl⟩
  | case3 c s single breaks ih =>
      have pieces_eq : pieces (c :: s) = [c] :: pieces s := by
        rw [pieces, if_pos breaks]
        exact single
      cases l with
      | zero => exact ⟨[], _, cut_break (mem_lineBreaks_of_isBreak breaks) pieces_eq⟩
      | succ l =>
          obtain ⟨body, ending, cut⟩ := ih (Nat.lt_of_succ_lt_succ inside)
          exact ⟨body, ending, cut.later pieces_eq⟩
  | case4 c s single ordinary ih =>
      have pieces_eq : pieces (c :: s) = onFirst c (pieces s) := by
        rw [pieces, if_neg ordinary]
        exact single
      have inside' : l < (pieces s).length := by
        obtain ⟨p, ps, pieces_s⟩ := List.exists_cons_of_ne_nil (pieces_ne_nil s)
        rw [pieces_s] at inside ⊢
        exact inside
      obtain ⟨body, ending, cut⟩ := ih inside'
      exact ⟨_, ending, cut.onFirst (by simpa using ordinary) pieces_eq⟩

/-! ## Trimming and counting -/

theorem Cut.mem_ends (cut : Cut s l body ending) : ending ∈ [] :: lineBreaks := by
  rcases cut.ends with ⟨rfl, -⟩ | ⟨breaks, -⟩
  · exact List.mem_cons_self
  · exact List.mem_cons_of_mem _ breaks

/-- A break that is not taken off a line is one character, and not `\n`. -/
theorem single_of_not_trimmed :
    ∀ ending ∈ [] :: lineBreaks, ¬ Trimmed ending → ending.length = 1 ∧ ending.getLast? ≠ some '\n' := by
  decide

theorem trimNewline_eq_self {line : List Char} (last : line.getLast? ≠ some '\n') : trimNewline line = line := by
  rw [List.getLast?_eq_head?_reverse] at last
  unfold trimNewline
  split
  · rename_i ends
    simp [ends] at last
  · rename_i ends
    simp [ends] at last
  · rfl

/-- **A line is what stands before its break, and the break unless it is `\n` or `\r\n`.** Only a `\r` before
it would go with a `\n`, and that is a break. -/
theorem Cut.trimNewline_eq (cut : Cut s l body ending) : trimNewline (body ++ ending) = body ++ kept ending := by
  have plain : ∀ c, body.getLast? = some c → isBreak c = false := fun c last =>
    cut.plain c (List.mem_of_getLast? last)
  unfold kept
  split
  · rename_i trimmed
    rw [List.append_nil]
    rcases trimmed with rfl | rfl | rfl
    · rw [List.append_nil]
      refine trimNewline_eq_self fun last => ?_
      exact absurd (plain _ last) (by decide)
    · rw [List.getLast?_eq_head?_reverse] at plain
      unfold trimNewline
      rw [List.reverse_append]
      rcases back : body.reverse with _ | ⟨c, r⟩
      · simpa using back
      · have carriage : c ≠ '\r' := by
          rintro rfl
          exact absurd (plain '\r' (by rw [back]; rfl)) (by decide)
        have body_eq : body = (c :: r).reverse := by rw [← back, List.reverse_reverse]
        simp [carriage, body_eq]
    · simp [trimNewline]
  · rename_i foreign
    obtain ⟨single, last⟩ := single_of_not_trimmed ending cut.mem_ends foreign
    have some_break : ending ≠ [] := by
      rintro rfl
      simp at single
    refine trimNewline_eq_self ?_
    rwa [List.getLast?_append_of_ne_nil _ some_break]

theorem Cut.lineStart_succ (cut : Cut s l body ending) :
    lineStart s (l + 1) = lineStart s l + body.length + ending.length := by
  simp [lineStart, List.take_add_one, cut.piece, Nat.add_assoc]

/-- The last line ends with the text. -/
theorem Cut.length_eq (cut : Cut s l body ending) (last : l + 1 = (pieces s).length) :
    s.length = lineStart s l + body.length + ending.length := by
  rw [← cut.lineStart_succ, lineStart, last, List.take_length, flatten_pieces]

/-- Nothing is left of a break, or the whole of one that is a single character. -/
theorem length_kept_cases : ∀ ending ∈ lineBreaks, 0 < ending.length ∧
    ((kept ending).length = 0 ∨ (ending.length = 1 ∧ (kept ending).length = 1)) := by
  decide

/-- A column that a line reaches belongs to it as far as its break, and not behind that. -/
theorem Cut.onLine_iff (cut : Cut s l body ending) {column : Nat}
    (reached : column ≤ body.length + (kept ending).length) :
    OnLine s (lineStart s l + column) l ↔ column ≤ body.length := by
  have next := cut.lineStart_succ
  unfold OnLine
  rcases cut.ends with ⟨rfl, last⟩ | ⟨breaks, more⟩
  · have total := cut.length_eq last
    have none_left : (kept []).length = 0 := rfl
    simp only [List.length_nil] at next total
    omega
  · have left_over := length_kept_cases ending breaks
    omega

end

end Text

/-! ## The lines of a document -/

open Text

section Document

variable {d : Document} {l : Nat} {body ending : List Char}

theorem lineCount_eq_length_pieces (d : Document) : lineCount d = (pieces d.text.toList).length := rfl

theorem lineAt?_of_cut (cut : Cut d.text.toList l body ending) :
    lineAt? d l = some (String.ofList (body ++ kept ending)) := by
  have line : lineAt? d l = ((pieces d.text.toList)[l]?).map fun p => String.ofList (trimNewline p) := rfl
  rw [line, cut.piece, Option.map_some, cut.trimNewline_eq]

theorem lineLength_of_cut (cut : Cut d.text.toList l body ending) :
    lineLength d l = body.length + (kept ending).length := by
  rw [lineLength_eq, lineAt?_of_cut cut]
  simp

/-- Clamping chooses a line of the document, and a column that the line reaches. -/
theorem clamp_document (d : Document) (p : Position) :
    (clamp p d).line < lineCount d ∧
      (clamp p d).column = min p.column (lineLength d (clamp p d).line) := by
  have some_line := lineCount_document_pos d
  have counted : lineCount d ≠ 0 := by omega
  simp only [clamp, counted, if_false, and_true]
  omega

end Document

/-- **A clamped place stays on its line unless it comes to stand behind a break that is not taken off.** Each
line of a document is what stands before its break, and the break too unless it is `\n` or `\r\n`. Clamping
leads to a line there is. If nothing is left of the break, the column is at most the number of characters
before it, and the place belongs to that line of the text. If the break is left, it counts as one more
column, and a place that was asked for behind it is where the next line starts. -/
theorem clamp_on_line_iff (d : Document) :
    let s := d.text.toList
    (∀ l, l < lineCount d → ∃ body ending, Cut s l body ending ∧
      lineAt? d l = some (String.ofList (body ++ kept ending)) ∧
      lineLength d l = body.length + (kept ending).length) ∧
    ∀ p, let q := clamp p d
      q.line < lineCount d ∧ ∃ body ending, Cut s q.line body ending ∧
        (Trimmed ending → q.column = min p.column body.length ∧
          OnLine s (lineStart s q.line + q.column) q.line) ∧
        (¬ Trimmed ending → q.column = min p.column (body.length + 1) ∧
          (OnLine s (lineStart s q.line + q.column) q.line ↔ p.column ≤ body.length) ∧
          (body.length < p.column → lineStart s q.line + q.column = lineStart s (q.line + 1))) := by
  intro s
  constructor
  · intro l inside
    rw [lineCount_eq_length_pieces] at inside
    obtain ⟨body, ending, cut⟩ := exists_cut inside
    exact ⟨body, ending, cut, lineAt?_of_cut cut, lineLength_of_cut cut⟩
  · intro p q
    obtain ⟨inside, column⟩ := clamp_document d p
    have counted := inside
    rw [lineCount_eq_length_pieces] at counted
    obtain ⟨body, ending, cut⟩ := exists_cut counted
    have column : q.column = min p.column (body.length + (kept ending).length) := by
      rw [← lineLength_of_cut cut]
      exact column
    have reached : q.column ≤ body.length + (kept ending).length := by omega
    have on_line := cut.onLine_iff reached
    refine ⟨inside, body, ending, cut, fun trimmed => ?_, fun foreign => ?_⟩
    · have nothing : (kept ending).length = 0 := by simp [kept, trimmed]
      exact ⟨by omega, on_line.2 (by omega)⟩
    · obtain ⟨single, -⟩ := single_of_not_trimmed ending cut.mem_ends foreign
      have counted_once : (kept ending).length = 1 := by simp [kept, foreign, single]
      have next : lineStart s (q.line + 1) = lineStart s q.line + body.length + ending.length :=
        cut.lineStart_succ
      refine ⟨by omega, on_line.trans ?_, fun behind => ?_⟩
      · omega
      · omega

/-- **A clamped place need not stay on its line.** The first line of `ab`, `\r`, `cd` is cut before the `\r` and
keeps it all the same; a place far to the right on it is clamped to behind the `\r`, where the second line
starts. -/
theorem clamp_behind_carriage_return :
    let d : Document := { text := "ab\rcd" }
    let s := d.text.toList
    clamp ⟨0, 9⟩ d = ⟨0, 3⟩ ∧ Cut s 0 ['a', 'b'] ['\r'] ∧ lineAt? d 0 = some "ab\r" ∧ lineLength d 0 = 3 ∧
      lineStart s 0 + 3 = lineStart s 1 ∧ ¬ OnLine s (lineStart s 0 + 3) 0 ∧
      ¬ ∀ (d : Document) (p : Position) (body ending : List Char),
        Cut d.text.toList (clamp p d).line body ending → (clamp p d).column ≤ body.length := by
  intro d s
  have cut : Cut s 0 ['a', 'b'] ['\r'] := ⟨by decide, by simp [isBreak], by decide⟩
  have place : clamp ⟨0, 9⟩ d = ⟨0, 3⟩ := by decide
  refine ⟨place, cut, by decide, by decide, by decide, ?_, fun all => ?_⟩
  · rw [cut.onLine_iff (by decide)]
    decide
  · have reached := all d ⟨0, 9⟩ ['a', 'b'] ['\r'] (by rw [place]; exact cut)
    rw [place] at reached
    exact absurd reached (by decide)

end CodeOutline
