import CodeOutline.Proofs.RowToggle
import CodeOutline.Proofs.Selection

/-!
# Proofs.RedundantRefresh — an up-to-date outline made again changes nothing that can be seen

A rebuild puts a new outline in place of the old one, forgets keys, and then fits selection and scroll to a number
of rows that depends on the keys it has left. Two facts make it idempotent, whatever the session was like before:
a panel that fits its outline is not changed by fitting (`Panel.Fits.clampTo_eq`), and keys that were kept once are
kept again (`Panel.retain_eq_self`).

A session whose outline is fresh may still remember keys that a rebuild forgets: those of leaves. No row depends on
them (`isCollapsed_rebuild`), so there are as many rows as before, and the selection and the scroll, which messages
keep inside the rows, stay where they were.
-/

namespace CodeOutline

set_option autoImplicit false

namespace Panel

variable {p q : Panel} {ns : List Node}

/-- Fitting does not change a panel that fits. -/
theorem Fits.clampTo_eq (fits : p.Fits ns) : p.clampTo (p.visibleCount ns) = p := by
  unfold clampTo
  split
  · rename_i empty
    obtain ⟨selected, scroll⟩ := fits.of_no_row empty
    rw [← selected, ← scroll]
  · have selected : p.selected.map (min · (p.visibleCount ns - 1)) = p.selected := by
      cases chosen : p.selected with
      | none => rfl
      | some i =>
          have row : i < p.visibleCount ns := fits.selected i chosen
          rw [Option.map_some, Nat.min_eq_left (by omega)]
    rw [selected, Nat.min_eq_left fits.scroll]

/-- Nothing is forgotten where every key is there to be folded. -/
theorem retain_eq_self (present : ∀ k ∈ p.toggled, k ∈ Forest.collapsibleKeys ns) : p.retain ns = p := by
  have same : (p.retain ns).toggled = p.toggled := by
    apply KeySet.ext_mem
    intro k
    rw [mem_toggled_retain]
    exact and_iff_left_of_imp (present k)
  calc p.retain ns
    _ = { p with toggled := (p.retain ns).toggled } := rfl
    _ = p := by rw [same]

/-- Panels that fold all nodes alike have the same number of rows. -/
theorem visibleCount_eq_of_isCollapsed (same : ∀ n ∈ Forest.nodes ns, q.isCollapsed n = p.isCollapsed n) :
    q.visibleCount ns = p.visibleCount ns := by
  rw [← length_shown, ← length_shown, ← q.length_rowsAt 0, ← p.length_rowsAt 0, rowsAt_congr same]

end Panel

namespace Session

variable {s : Session}

theorem rebuild_panel (s : Session) :
    s.rebuild.panel =
      (s.panel.retain s.rebuild.outline.roots).clampTo
        ((s.panel.retain s.rebuild.outline.roots).visibleCount s.rebuild.outline.roots) := rfl

/-- To make the outline again is to make it once. -/
theorem rebuild_rebuild (s : Session) : s.rebuild.rebuild = s.rebuild := by
  have retained : s.rebuild.panel.retain s.rebuild.outline.roots = s.rebuild.panel := by
    apply Panel.retain_eq_self
    intro k remembered
    rw [toggled_rebuild, Panel.mem_toggled_retain] at remembered
    exact remembered.2
  have fits : s.rebuild.panel.Fits s.rebuild.outline.roots := inRows_clampPanel _
  have panel : s.rebuild.rebuild.panel = s.rebuild.panel := by
    have again := s.rebuild.rebuild_panel
    rw [show s.rebuild.rebuild.outline = s.rebuild.outline from rfl, retained, fits.clampTo_eq] at again
    exact again
  calc s.rebuild.rebuild
    _ = { s.rebuild with panel := s.rebuild.rebuild.panel } := rfl
    _ = s.rebuild := by rw [panel]

theorem outline_rebuild_of_fresh (synced : s.Synced) (fresh : s.Fresh) : s.rebuild.outline = s.outline :=
  synced.fresh_rebuild.trans fresh.symm

/-- Where selection and scroll are inside the rows of the new outline already, a rebuild forgets keys and does
nothing else to the panel. -/
theorem rebuild_panel_of_fits (fits : s.panel.Fits s.rebuild.outline.roots) :
    s.rebuild.panel = s.panel.retain s.rebuild.outline.roots := by
  have rows : (s.panel.retain s.rebuild.outline.roots).visibleCount s.rebuild.outline.roots =
      s.panel.visibleCount s.rebuild.outline.roots := by
    rw [← Panel.visibleCount_clampTo, ← rebuild_panel]
    exact Panel.visibleCount_eq_of_isCollapsed fun n member => s.isCollapsed_rebuild member
  have retained_fits : (s.panel.retain s.rebuild.outline.roots).Fits s.rebuild.outline.roots := by
    constructor
    · rw [rows]
      exact fits.selected
    · rw [rows]
      exact fits.scroll
  rw [rebuild_panel, retained_fits.clampTo_eq]

/-- The messages that ask for a refresh of the document as it is. -/
def AsksRefresh (s : Session) (m : Message) : Prop :=
  m = .rebuild ∨ ∃ d, s.document = some d ∧ m = .refreshDue d.revision

theorem AsksRefresh.update_eq {m : Message} (asks : s.AsksRefresh m) : s.update m = s.refreshed := by
  rcases asks with rfl | ⟨d, active, rfl⟩
  · rfl
  · simp [update, active]

/-- **Redundant refreshes are invisible.** To make the outline again right after it was made changes nothing at all,
whatever the session. In a session that messages lead to and whose outline is the one called for, a request to make
it again, or a refresh that comes due for the document's revision, leaves outline, rows, selection, scroll, size and
caret as they were. -/
theorem redundant_refresh_unseen :
    (∀ s : Session, s.rebuild.rebuild = s.rebuild) ∧
      ∀ s : Session, s.Reachable → s.Fresh → ∀ m, s.AsksRefresh m →
        let t := (s.update m).1
        t.outline = s.outline ∧ t.rows = s.rows ∧ t.panel.selected = s.panel.selected ∧
          t.panel.scroll = s.panel.scroll ∧ t.panel.capacity = s.panel.capacity ∧ t.caret = s.caret := by
  refine ⟨rebuild_rebuild, ?_⟩
  intro s reach fresh m asks t
  have made : t = s.rebuild := congrArg Prod.fst asks.update_eq
  clear_value t
  subst made
  have outline : s.rebuild.outline = s.outline := outline_rebuild_of_fresh reach.synced fresh
  have fits : s.panel.Fits s.rebuild.outline.roots := by
    rw [outline]
    exact reach.inRows
  have rows : s.rebuild.rows = s.rows := by
    have folded := Panel.rowsAt_congr (fun n member => s.isCollapsed_rebuild (n := n) member) 0
    rw [outline] at folded
    rw [rows, outline]
    exact folded
  refine ⟨outline, rows, ?_, ?_, ?_, rfl⟩
  all_goals
    rw [rebuild_panel_of_fits fits]
    rfl

/-- A leaf that was named in a toggle is forgotten by the next rebuild, and the panel looks as before: the row that
is selected, and the one scrolled past, stay where they were. -/
theorem redundant_refresh_unseen_of_named_leaf :
    let start := withDocument {} { text := "class A \x7b\n\x7d\nlet b = 2" }
    let s := ((((start.update (.resize 1)).1.update (.toggle ⟨0, "A"⟩)).1.update .selectNext).1.update (.scroll 1)).1
    let t := (s.update .rebuild).1
    ⟨0, "A"⟩ ∈ s.panel.toggled ∧ ⟨0, "A"⟩ ∉ t.panel.toggled ∧
      t.rows = s.rows ∧ s.rows.length = 2 ∧ t.panel.selected = some 0 ∧ t.panel.scroll = 1 := by
  intro start s t
  have reach : s.Reachable :=
    ((((Reachable.withDocument {} _).update _).update _).update _).update _
  have fresh : s.outline = s.calledFor := by decide +kernel
  obtain ⟨-, rows, selected, scroll, -, -⟩ := redundant_refresh_unseen.2 s reach fresh .rebuild (.inl rfl)
  refine ⟨by decide +kernel, by decide +kernel, rows, by decide +kernel, ?_, ?_⟩
  · rw [selected]
    decide +kernel
  · rw [scroll]
    decide +kernel

end Session

end CodeOutline
