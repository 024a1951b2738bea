import CodeOutline.Document

/-!
# LineSource — texts that can be read line by line

A source can be read in four ways: its lines are counted, looked up by number, measured, and walked through
from the first to the last. `LineSource` has the four together with what ties them to each other: there is a
line at the numbers below the count and at no others (`lineAt?_isSome`), a line is as long as the one looked
up (`lineLength_eq`), and the walk looks the lines up one after the other (`lines_eq`). Measuring and walking
may be left out of a source, and are then done by looking up.

Four things are sources. A plain text is cut at `\n`, and brings a walk of its own. A list of lines is taken
line by line without the `\n` and `\r` characters at the end of each, and an array of lines is read as the
list of its lines. A document is cut at its own breaks.

What a walk finds at a number is what looking it up gives (`getElem?_lines`). So a walk is known by its lines
one by one (`lines_ext`): `lines_list` and `lines_document_eq` say what the walks that look up come to.
-/

namespace CodeOutline

open CodeOutline.Text

/-- A list made by looking up each number below a count has at each number what looking it up gives, if
something is found at these numbers and at no others. -/
theorem getElem?_filterMap_range {β : Type} {f : Nat → Option β} {n : Nat}
    (found : ∀ i, (f i).isSome = true ↔ i < n) (i : Nat) : ((List.range n).filterMap f)[i]? = f i := by
  have nothing_skipped : ((List.range n).filterMap f).map some = (List.range n).map f := by
    rw [List.map_filterMap_some_eq_filter_map_isSome, List.filter_eq_self]
    intro x member
    obtain ⟨j, below, rfl⟩ := List.mem_map.1 member
    exact (found j).2 (List.mem_range.1 below)
  have here : ((List.range n).filterMap f)[i]?.map some = (List.range n)[i]?.map f := by
    rw [← List.getElem?_map, nothing_skipped, List.getElem?_map]
  by_cases below : i < n
  · obtain ⟨x, at_i⟩ := Option.isSome_iff_exists.1 ((found i).2 below)
    simpa [List.getElem?_range below, at_i] using here
  · have missing : f i = none := Option.not_isSome_iff_eq_none.1 (mt (found i).1 below)
    have past : (List.range n)[i]? = none := List.getElem?_eq_none (by simpa using below)
    simpa [past, missing] using here

/-- What can be read line by line, without the breaks that end the lines. -/
class LineSource (α : Type) where
  lineCount : α → Nat
  lineAt? : α → Nat → Option String
  /-- The number of characters of a line, and 0 where there is none. -/
  lineLength : α → Nat → Nat := fun s i => ((lineAt? s i).map String.length).getD 0
  lines : α → List String := fun s => (List.range (lineCount s)).filterMap (lineAt? s)
  lineAt?_isSome (s : α) (i : Nat) : (lineAt? s i).isSome = true ↔ i < lineCount s
  lineLength_eq (s : α) (i : Nat) : lineLength s i = ((lineAt? s i).map String.length).getD 0 := by
    intros; rfl
  lines_eq (s : α) : lines s = (List.range (lineCount s)).filterMap (lineAt? s) := by
    intros; rfl

namespace LineSource

section

variable {α : Type} [LineSource α]

theorem getElem?_lines (s : α) (i : Nat) : (lines s)[i]? = lineAt? s i := by
  rw [lines_eq]
  exact getElem?_filterMap_range (lineAt?_isSome s) i

theorem lines_ext {s : α} {ls : List String} (each : ∀ i, lineAt? s i = ls[i]?) : lines s = ls := by
  apply List.ext_getElem?
  intro i
  rw [getElem?_lines, each]

end

instance : LineSource String where
  lineCount text := (plainLines text.toList).length
  lineAt? text i := (plainLines text.toList)[i]?.map String.ofList
  lines text := (plainLines text.toList).map String.ofList
  lineAt?_isSome text i := by simp
  lines_eq text := by
    apply List.ext_getElem?
    intro i
    rw [getElem?_filterMap_range (by simp), List.getElem?_map]

instance : LineSource (List String) where
  lineCount ls := ls.length
  lineAt? ls i := ls[i]?.map fun l => String.ofList (trimEnd (fun c => c == '\n' || c == '\r') l.toList)
  lineAt?_isSome ls i := by simp

instance : LineSource (Array String) where
  lineCount ls := lineCount ls.toList
  lineAt? ls i := lineAt? ls.toList i
  lineAt?_isSome ls i := lineAt?_isSome ls.toList i

instance : LineSource Document where
  lineCount := Document.lineCount
  lineAt? := Document.lineAt?
  lineLength := Document.lineLength
  lineAt?_isSome d i := by simp [Document.lineAt?, Document.lineCount]

theorem lines_list (ls : List String) :
    lines ls = ls.map fun l => String.ofList (trimEnd (fun c => c == '\n' || c == '\r') l.toList) :=
  lines_ext fun _ => List.getElem?_map.symm

theorem lines_document_eq (d : Document) :
    lines d = (pieces d.text.toList).map fun p => String.ofList (trimNewline p) :=
  lines_ext fun _ => List.getElem?_map.symm

end LineSource

end CodeOutline
