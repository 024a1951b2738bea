import Mathlib.Algebra.Group.Int.Defs
import Mathlib.Algebra.Group.Nat.Defs
import CodeOutline.Proofs.SessionRuns

/-!
# Proofs.Selection — selection and scroll stay inside the rows

A panel fits a forest (`Panel.Fits`) when its selection is a row there is and it is scrolled no further
than needed to see the last row. Clamping to the number of rows makes a panel fit, whatever it was before
(`fits_clampTo`). Many messages do not clamp: they leave outline, folding, scroll and size alone and
select at most a row they have looked up (`Move.selected`), so a panel that fitted still does.
-/

namespace CodeOutline

set_option autoImplicit false

namespace Panel

/-- Selection and scroll are inside the rows of a forest. -/
structure Fits (p : Panel) (ns : List Node) : Prop where
  selected : ∀ i, p.selected = some i → i < p.visibleCount ns
  scroll : p.scroll ≤ p.visibleCount ns - max p.capacity 1

/-- Clamping changes neither what is folded nor the size. -/
theorem visibleCount_clampTo (p : Panel) (total : Nat) (ns : List Node) :
    (p.clampTo total).visibleCount ns = p.visibleCount ns := by
  unfold clampTo
  split
  · apply visibleCount_congr <;> rfl
  · apply visibleCount_congr <;> rfl

theorem fits_clampTo (p : Panel) (ns : List Node) : (p.clampTo (p.visibleCount ns)).Fits ns := by
  have rows := p.visibleCount_clampTo (p.visibleCount ns) ns
  constructor
  · intro i chosen
    rw [rows]
    unfold clampTo at chosen
    split at chosen
    · simp at chosen
    · simp only [Option.map_eq_some_iff] at chosen
      obtain ⟨j, -, rfl⟩ := chosen
      omega
  · rw [rows]
    unfold clampTo
    split
    · exact Nat.zero_le _
    · exact Nat.min_le_right _ _

/-- A panel that fits has nothing selected and is not scrolled when there are no rows. -/
theorem Fits.of_no_row {p : Panel} {ns : List Node} (fits : p.Fits ns) (empty : p.visibleCount ns = 0) :
    p.selected = none ∧ p.scroll = 0 := by
  have scroll := fits.scroll
  constructor
  · apply Option.eq_none_iff_forall_ne_some.2
    intro i chosen
    have row := fits.selected i chosen
    omega
  · omega

end Panel

namespace Session

def InRows (s : Session) : Prop := s.panel.Fits s.outline.roots

theorem inRows_clampPanel (s : Session) : s.clampPanel.InRows :=
  s.panel.fits_clampTo s.outline.roots

theorem fits_select {s : Session} (before : s.InRows) {selected : Option Nat}
    (row : s.Selectable selected) : Panel.Fits { s.panel with selected } s.outline.roots := by
  have rows : Panel.visibleCount { s.panel with selected } s.outline.roots = s.rowCount := by
    apply Panel.visibleCount_congr <;> rfl
  constructor
  · intro i chosen
    rw [rows]
    rcases row with same | ⟨j, chosen', below⟩
    · exact before.selected i (same ▸ chosen)
    · cases chosen.symm.trans chosen'
      exact below
  · rw [rows]
    exact before.scroll

theorem Turn.inRows {s : Session} {r : Session × Option Command} (turn : Turn s r)
    (before : s.InRows) : r.1.InRows := by
  cases turn with
  | idle | delayed => exact before
  | redrawn panel move =>
      cases move with
      | fitted p => exact p.fits_clampTo s.outline.roots
      | selected selected row => exact fits_select before row
  | revealed d active p selected row => exact fits_select before row
  | missed absent selected row => exact fits_select before row
  | refreshed t => exact inRows_clampPanel _

theorem Reachable.inRows {s : Session} (reach : s.Reachable) : s.InRows := by
  induction reach with
  | new config => exact ⟨nofun, Nat.zero_le _⟩
  | withDocument config d => exact inRows_clampPanel _
  | update _ m ih => exact (update_turn _ m).inRows ih

/-- **Selection and scroll stay inside the rows.** After any messages the selected row is one there is,
the scroll leaves as many rows in view as fit, without rows there is neither, and the panel's default is
that of the settings. So, with fewer than `2 ^ 63` declarations, neither the row after the selected one
nor the scroll after a 32-bit step needs more than 64 bits. -/
theorem Reachable.selection_inside_rows {s : Session} (reach : s.Reachable) :
    (∀ i, s.panel.selected = some i → i < s.rowCount ∧ ∃ n, s.nodeAtRow? i = some n) ∧
      s.panel.scroll ≤ s.rowCount - max s.panel.capacity 1 ∧
      (s.rowCount = 0 → s.panel.selected = none ∧ s.panel.scroll = 0) ∧
      s.panel.collapseByDefault = s.config.collapseByDefault ∧
      (s.outline.nodeCount < 2 ^ 63 →
        (∀ i, s.panel.selected = some i → i + 1 < 2 ^ 64 ∧ rowAfter i = i + 1) ∧
        ∀ lines : Int, lines < 2 ^ 31 → s.panel.scroll + lines < 2 ^ 64) := by
  have fits : s.InRows := reach.inRows
  refine ⟨?_, fits.scroll, fits.of_no_row, reach.synced.collapse, ?_⟩
  · intro i chosen
    have row : i < s.rowCount := fits.selected i chosen
    have found := (s.panel.nodeAt?_isSome_iff s.outline.roots i).2 row
    exact ⟨row, Option.isSome_iff_exists.1 found⟩
  · intro few
    have rows : s.rowCount < 2 ^ 63 :=
      Nat.lt_of_le_of_lt (s.panel.visibleCount_le_size s.outline.roots) few
    constructor
    · intro i chosen
      have row : i < s.rowCount := fits.selected i chosen
      have small : i + 1 < 2 ^ 64 := by omega
      exact ⟨small, Nat.mod_eq_of_lt small⟩
    · intro lines bounded
      have scroll : s.panel.scroll ≤ s.rowCount - max s.panel.capacity 1 := fits.scroll
      omega

/-- Two rows of which one fits: scrolled down by far too much, the panel shows the second, and the first
is still selected. -/
theorem selection_inside_rows_of_two :
    let s := ((((withDocument {} { text := "let a = 1\nlet b = 2" }).update (.resize 1)).1.update
      .selectNext).1.update (.scroll 100)).1
    s.panel.selected = some 0 ∧ s.panel.scroll = 1 ∧ s.rowCount = 2 ∧
      (∃ n, s.nodeAtRow? 0 = some n) ∧ ∀ lines : Int, lines < 2 ^ 31 → s.panel.scroll + lines < 2 ^ 64 := by
  intro s
  have reach : s.Reachable := (((Reachable.withDocument {} _).update _).update _).update _
  have chosen : s.panel.selected = some 0 := by decide +kernel
  have few : s.outline.nodeCount < 2 ^ 63 := by decide +kernel
  obtain ⟨inside, -, -, -, bounded⟩ := reach.selection_inside_rows
  exact ⟨chosen, by decide +kernel, by decide +kernel, (inside 0 chosen).2, (bounded few).2⟩

end Session

end CodeOutline
