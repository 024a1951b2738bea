import CodeOutline.Proofs.Extraction
import CodeOutline.Proofs.Selection

/-!
# Proofs.ExactPlaces — from a node of an up-to-date outline to its declaration in the text

Going to a node clamps the place that the node says it is at, so that a node of an old outline leads
somewhere. On the text that the outline was made from there is nothing to clamp. The node is on a line that
the source has, the one that was classified (`exists_line_of_mem_nodes`), and a column that was read off
that line is no further than its end, though it was found as an offset in bytes and is given in characters
(`getD_columnFor_le`). Only a column that the settings fix may lie past the end, and is then cut down to it.

So the rows of a session whose outline is up to date lead exactly to their declarations
(`navigation_exact`).
-/

namespace CodeOutline

set_option autoImplicit false

open CodeOutline.Line CodeOutline.Text LineSource

/-! ## Columns -/

namespace Line

theorem columnAt_le (line : String) (offset : Nat) : columnAt line offset ≤ line.length := by
  unfold columnAt
  cases found : charsBefore offset line.toList with
  | none => exact Nat.zero_le _
  | some k =>
      rw [← String.length_toList]
      exact charsBefore_le_length found

theorem indentOf_le (line : String) : indentOf line ≤ line.length := by
  rw [← String.length_toList]
  exact (List.takeWhile_sublist isBlank).length_le

/-- Unless it is fixed, a column is on its line. -/
theorem getD_columnFor_le {policy : ColumnPolicy} (free : ∀ column, policy ≠ .fixed column) (kind : Kind)
    (line : String) (start : Nat) : (columnFor policy kind line start).getD 0 ≤ line.length := by
  cases policy with
  | matchStart =>
      cases kind with
      | functionDecl | variableDecl => exact columnAt_le line start
      | _ => exact indentOf_le line
  | firstNonBlank => exact indentOf_le line
  | fixed column => exact absurd rfl (free column)
  | «omit» => exact Nat.zero_le _

theorem Classifier.exists_columnFor {c : Classifier} {line : String} {d : Declaration}
    (found : c.classify line = some d) : ∃ start, d.column = columnFor c.column d.kind line start := by
  unfold Classifier.classify at found
  split at found
  · rename_i kind m _
    split at found
    · cases found
    · cases found
      exact ⟨m.start, rfl⟩
  · cases found

end Line

/-! ## Nodes and their lines -/

/-- A node of an outline is what the classifier found in its line. -/
theorem Builder.exists_line_of_mem_nodes {b : Builder} {lines : List String} {revision : UInt64} {n : Node}
    (member : n ∈ Forest.nodes (b.build lines revision).roots) :
    ∃ line, lines[n.line]? = some line ∧ b.classifier.classify line = some ⟨n.kind, n.name, n.column⟩ := by
  have listed := (tally_run (b := b) lines).listed.subset (List.mem_map_of_mem member)
  exact b.classifier.mem_declarations_iff.1 listed

section Source

variable {α : Type} [LineSource α]

/-- Where going to a node of an up-to-date outline leads: to where the node says it is. A fixed column
that the line does not reach is cut down to the end of the line. -/
def Node.place (n : Node) (policy : ColumnPolicy) (source : α) : Position :=
  match policy with
  | .fixed column => ⟨n.line, min column.toNat (lineLength source n.line)⟩
  | _ => n.position

theorem Node.place_of_not_fixed (n : Node) {policy : ColumnPolicy} (free : ∀ column, policy ≠ .fixed column)
    (source : α) : n.place policy source = n.position := by
  cases policy with
  | fixed column => exact absurd rfl (free column)
  | _ => rfl

/-- On a line that the source has, clamping only looks at the column. -/
theorem clamp_of_line_lt {p : Position} {source : α} (inside : p.line < lineCount source) :
    clamp p source = ⟨p.line, min p.column (lineLength source p.line)⟩ := by
  have some_line : lineCount source ≠ 0 := by omega
  have same_line : min p.line (lineCount source - 1) = p.line := by omega
  simp only [clamp, some_line, if_false, same_line]

/-- **A node leads to the place of its declaration** in the source that its outline was made from. -/
theorem resolve_eq_place (source : α) (config : Config) (revision : UInt64) {n : Node}
    (member : n ∈ Forest.nodes (outlineOf source config revision).roots) :
    resolve n source = n.place config.column source := by
  obtain ⟨line, at_line, found⟩ := Builder.exists_line_of_mem_nodes member
  obtain ⟨start, column⟩ := Classifier.exists_columnFor found
  have column : n.column = columnFor config.column n.kind line start := column
  rw [getElem?_lines] at at_line
  have inside : n.position.line < lineCount source :=
    (lineAt?_isSome source n.line).1 (Option.isSome_iff_exists.2 ⟨line, at_line⟩)
  have length : lineLength source n.line = line.length := by
    rw [lineLength_eq, at_line]
    rfl
  rw [resolve, clamp_of_line_lt inside]
  by_cases fixed : ∃ c, config.column = .fixed c
  · obtain ⟨c, fixed⟩ := fixed
    simp only [Node.place, fixed, Node.position, column, columnFor, Option.getD_some]
  · have free : ∀ c, config.column ≠ .fixed c := fun c same => fixed ⟨c, same⟩
    have reached : n.position.column ≤ lineLength source n.line := by
      rw [length]
      show n.column.getD 0 ≤ line.length
      rw [column]
      exact getD_columnFor_le free n.kind line start
    rw [n.place_of_not_fixed free source]
    show (⟨n.line, min n.position.column (lineLength source n.line)⟩ : Position) = n.position
    rw [Nat.min_eq_left reached]
    rfl

end Source

/-! ## Rows -/

namespace Session

/-- What going to the node of a row does: the caret is at the place, and the host is asked to show it. -/
def shows (s : Session) (place : Position) : Session × Option Command :=
  ({ s with caret := some place }, some (.reveal place .center))

section Rows

variable {s : Session} {d : Document} {i : Nat} {n : Node}

/-- In an up-to-date session, going to the node of a row leads to its declaration. -/
theorem reveal_eq_shows (active : s.document = some d) (fresh : s.outline = outlineOf d s.config d.revision)
    (row : s.nodeAtRow? i = some n) (selected : Option Nat) :
    (s.select selected).reveal n.position = (s.select selected).shows (n.place s.config.column d) := by
  have member : n ∈ Forest.nodes (outlineOf d s.config d.revision).roots := by
    rw [← fresh]
    exact s.panel.mem_nodes_of_nodeAt? row
  have exact_place := resolve_eq_place d s.config d.revision member
  rw [resolve] at exact_place
  have still_active : (s.select selected).document = some d := active
  simp only [reveal, still_active, exact_place, shows]

theorem openSelected_eq_shows (active : s.document = some d)
    (fresh : s.outline = outlineOf d s.config d.revision) (chosen : s.panel.selected = some i)
    (row : s.nodeAtRow? i = some n) :
    s.update .openSelected = s.shows (n.place s.config.column d) := by
  have node : s.selectedNode? = some n := by
    rw [selectedNode?, chosen]
    exact row
  have opened : s.update .openSelected = s.reveal n.position := by simp only [update, node]
  rw [opened]
  exact reveal_eq_shows active fresh row s.panel.selected

theorem click_eq_shows (active : s.document = some d) (fresh : s.outline = outlineOf d s.config d.revision)
    (row : s.nodeAtRow? i = some n) {clicks : Nat} (twice : 2 ≤ clicks) {onChevron : Bool}
    (beside : (onChevron && n.isCollapsible) = false) :
    s.update (.click i clicks onChevron) = (s.select (some i)).shows (n.place s.config.column d) := by
  have opened : s.update (.click i clicks onChevron) = (s.select (some i)).reveal n.position := by
    simp [update, click, row, beside, twice]
  rw [opened]
  exact reveal_eq_shows active fresh row (some i)

end Rows

end Session

/-- **Navigation in an up-to-date outline is exact.** In the source it was made from, a node leads to where
it says it is, and with a fixed column to that column or to the end of the line. So in every session whose
outline is that of its document, opening the selected row, and two clicks or more on a row there is, beside
its chevron or where it has none, show just that place of the row's node and put the caret there. -/
theorem navigation_exact :
    (∀ {α : Type} [LineSource α] (source : α) (config : Config) (revision : UInt64),
      ∀ n ∈ Forest.nodes (outlineOf source config revision).roots,
        resolve n source = n.place config.column source) ∧
    ∀ (s : Session) (d : Document), s.Reachable → s.document = some d →
      s.outline = outlineOf d s.config d.revision →
      (∀ i, s.panel.selected = some i → ∃ n, s.nodeAtRow? i = some n ∧
        s.update .openSelected = s.shows (n.place s.config.column d)) ∧
      ∀ i, i < s.rowCount → ∃ n, s.nodeAtRow? i = some n ∧
        ∀ clicks onChevron, 2 ≤ clicks → (onChevron = false ∨ n.isCollapsible = false) →
          s.update (.click i clicks onChevron) = (s.select (some i)).shows (n.place s.config.column d) := by
  constructor
  · intro α _ source config revision n member
    exact resolve_eq_place source config revision member
  · intro s d reach active fresh
    have row : ∀ i, i < s.rowCount → ∃ n, s.nodeAtRow? i = some n := fun i below =>
      Option.isSome_iff_exists.1 ((s.panel.nodeAt?_isSome_iff s.outline.roots i).2 below)
    constructor
    · intro i chosen
      obtain ⟨n, at_row⟩ := row i (reach.inRows.selected i chosen)
      exact ⟨n, at_row, Session.openSelected_eq_shows active fresh chosen at_row⟩
    · intro i below
      obtain ⟨n, at_row⟩ := row i below
      refine ⟨n, at_row, fun clicks onChevron twice beside => ?_⟩
      apply Session.click_eq_shows active fresh at_row twice
      rcases beside with rfl | leaf
      · rfl
      · simp [leaf]

/-- The declaration after `é; ` starts at byte 4 and at column 3: the selected row leads there, and two
clicks on the second row lead to the second line. A fixed column of 40 leads to the end of a line of 9. -/
theorem navigation_exact_past_wide_character :
    let d : Document := { text := "\u00e9; let x = 1\nlet y = 2" }
    let s := ((Session.withDocument {} d).update .selectNext).1
    s.update .openSelected = s.shows ⟨0, 3⟩ ∧
      s.update (.click 1 2 false) = (s.select (some 1)).shows ⟨1, 0⟩ ∧
      ∀ n ∈ Forest.nodes (outlineOf "let y = 2" { column := .fixed 40 } 0).roots, resolve n "let y = 2" = ⟨0, 9⟩ := by
  intro d s
  obtain ⟨places, rows⟩ := navigation_exact
  have reach : s.Reachable := (Session.Reachable.withDocument {} d).update .selectNext
  obtain ⟨active, config, fresh, chosen, below, first, second⟩ :
      s.document = some d ∧ s.config = {} ∧ s.outline = outlineOf d s.config d.revision ∧
        s.panel.selected = some 0 ∧ 1 < s.rowCount ∧
        s.nodeAtRow? 0 = some (.leaf .variableDecl "x" 0 (some 3)) ∧
        s.nodeAtRow? 1 = some (.leaf .variableDecl "y" 1 (some 0)) := by
    decide +kernel
  clear_value s
  obtain ⟨opens, clicks⟩ := rows s d reach active fresh
  obtain ⟨n, at_row, opened⟩ := opens 0 chosen
  obtain ⟨m, at_row', clicked⟩ := clicks 1 below
  cases Option.some.inj (first.symm.trans at_row)
  cases Option.some.inj (second.symm.trans at_row')
  rw [config] at opened clicked
  refine ⟨opened, clicked 2 false (by decide) (.inl rfl), fun n member => ?_⟩
  have only : n = .leaf .variableDecl "y" 0 (some 40) := by
    revert n
    decide +kernel
  rw [places "let y = 2" _ 0 n member, only]
  decide +kernel

end CodeOutline
