import CodeOutline.Session.Update
import CodeOutline.Proofs.PanelRows

/-!
# Proofs.SessionRuns — what one message does to a session, and which sessions messages lead to

`Turn` says all that a message can do: nothing, a new panel over the same outline, a caret that is shown,
an outline made again, or an edit whose refresh has to wait. `update_turn` goes through the messages once
and for all. Facts about runs are proved for a turn and then, by one induction, for every `Reachable`
session.

`Course` tells the messages apart by what they do to the document and its outline: an activation, a rebuild
(`Rebuilds` lists them), an edit whose refresh has to wait, or neither touched (`Untouched`).

A session is in step with its settings (`Synced`) when the builder it keeps and the panel's default are
the ones the settings call for. Only `setConfig` touches any of the three, and it sets them together.
-/

namespace CodeOutline

namespace Session

set_option autoImplicit false

structure Synced (s : Session) : Prop where
  builder : s.builder = .ofConfig s.config
  collapse : s.panel.collapseByDefault = s.config.collapseByDefault

def calledFor (s : Session) : Outline :=
  match s.document with
  | some d => outlineOf d s.config d.revision
  | none => .empty 0

/-- The outline is the one that is called for. -/
def Fresh (s : Session) : Prop := s.outline = s.calledFor

inductive Reachable : Session → Prop where
  | new (config : Config) : Reachable (new config)
  | withDocument (config : Config) (d : Document) : Reachable (withDocument config d)
  | update {s : Session} (before : Reachable s) (m : Message) : Reachable (s.update m).1

/-! ## Making the outline again -/

theorem collapseByDefault_clampTo (p : Panel) (total : Nat) :
    (p.clampTo total).collapseByDefault = p.collapseByDefault := by
  unfold Panel.clampTo; split <;> rfl

theorem Synced.rebuild {s : Session} (synced : s.Synced) : s.rebuild.Synced :=
  ⟨synced.builder, (collapseByDefault_clampTo _ _).trans synced.collapse⟩

/-- A session in step with its settings is fresh once its outline is made again, whatever the outline
was before. -/
theorem Synced.fresh_rebuild {s : Session} (synced : s.Synced) : s.rebuild.Fresh := by
  show freshOutline s.builder s.document = s.calledFor
  rw [synced.builder]
  unfold calledFor
  cases s.document <;> rfl

theorem synced_new (config : Config) : (new config).Synced := ⟨rfl, rfl⟩

theorem synced_withDocument (config : Config) (d : Document) : (withDocument config d).Synced :=
  Synced.rebuild ⟨rfl, rfl⟩

/-! ## One message -/

/-- A selection that stays, or goes to a row there is. -/
def Selectable (s : Session) (selected : Option Nat) : Prop :=
  selected = s.panel.selected ∨ ∃ i, selected = some i ∧ i < s.rowCount

/-- The panels that a message leaves over an outline that stays: one that was fitted to the rows, or the
one before with another row selected. -/
inductive Move (s : Session) : Panel → Prop where
  | fitted (p : Panel) (default : p.collapseByDefault = s.panel.collapseByDefault) :
      Move s (p.clampTo (p.visibleCount s.outline.roots))
  | selected (selected : Option Nat) (row : s.Selectable selected) :
      Move s { s.panel with selected }

/-- What a message did, and what it was answered. -/
inductive Turn (s : Session) : Session × Option Command → Prop where
  | idle : Turn s (s, none)
  | redrawn (panel : Panel) (move : Move s panel) : Turn s ({ s with panel }, some .redraw)
  | revealed (d : Document) (active : s.document = some d) (p : Position) (selected : Option Nat)
      (row : s.Selectable selected) :
      Turn s ({ s with panel := { s.panel with selected }, caret := some (clamp p d) },
        some (.reveal (clamp p d) .center))
  /-- A row was chosen and there is no document to show its place in. -/
  | missed (absent : s.document = none) (selected : Option Nat) (row : s.Selectable selected) :
      Turn s (s.select selected, none)
  /-- The outline was made again, of a session in step with its settings if this one was. -/
  | refreshed (t : Session) (synced : s.Synced → t.Synced) : Turn s t.refreshed
  /-- The document was edited and its outline has to wait. -/
  | delayed (d : Document) (active : s.document = some d) (e : Edit) :
      Turn s ({ s with document := some (d.edit e) },
        some (.debounce (d.edit e).revision s.config.debounceMs))

section Turn

variable (s : Session)

theorem selectable_self : s.Selectable s.panel.selected := .inl rfl

theorem Move.kept : Move s s.panel := .selected _ s.selectable_self

theorem turn_reveal (p : Position) {selected : Option Nat} (row : s.Selectable selected) :
    Turn s ((s.select selected).reveal p) := by
  unfold reveal
  split
  · rename_i absent
    exact .missed (s := s) absent selected row
  · rename_i d active
    exact .revealed (s := s) d active p selected row

theorem move_selectNext : ∃ panel, Move s panel ∧ s.selectNext = { s with panel } := by
  unfold selectNext
  split
  · exact ⟨_, .kept s, rfl⟩
  · rename_i some_row
    split
    · exact ⟨_, .selected (some 0) (.inr ⟨0, rfl, Nat.pos_of_ne_zero some_row⟩), rfl⟩
    · split
      · rename_i i _ below
        exact ⟨_, .selected _ (.inr ⟨rowAfter i, rfl, below⟩), rfl⟩
      · exact ⟨_, .kept s, rfl⟩

theorem move_setSelectedCollapsed (collapsed : Bool) :
    ∃ panel, Move s panel ∧ s.setSelectedCollapsed collapsed = { s with panel } := by
  unfold setSelectedCollapsed
  split
  · exact ⟨_, .kept s, rfl⟩
  · split
    · split
      · exact ⟨_, .fitted (s.panel.setCollapsed _ collapsed) rfl, rfl⟩
      · exact ⟨_, .fitted s.panel rfl, rfl⟩
    · exact ⟨_, .fitted s.panel rfl, rfl⟩

theorem move_toggleKey (key : NodeKey) :
    ∃ panel, Move s panel ∧ s.toggleKey key = { s with panel } := by
  unfold toggleKey
  split
  · exact ⟨_, .fitted (s.panel.toggle _) rfl, rfl⟩
  · exact ⟨_, .fitted s.panel rfl, rfl⟩

theorem turn_click (index clicks : Nat) (onChevron : Bool) :
    Turn s (s.click index clicks onChevron) := by
  unfold click
  split
  · exact .idle
  · rename_i n found
    have row : s.Selectable (some index) := by
      refine .inr ⟨index, rfl, ?_⟩
      exact (s.panel.nodeAt?_isSome_iff _ _).1 (Option.isSome_of_eq_some found)
    split
    · exact .redrawn _ (.fitted ({ s.panel with selected := some index }.toggle n) rfl)
    · split
      · exact s.turn_reveal n.position row
      · exact .redrawn _ (.selected (some index) row)

/-- **All that a message can do.** -/
theorem update_turn (m : Message) : Turn s (s.update m) := by
  have redraw : ∀ {t : Session}, (∃ panel, Move s panel ∧ t = { s with panel }) →
      Turn s (t, some .redraw) := by
    rintro t ⟨panel, move, rfl⟩
    exact .redrawn panel move
  cases m with
  | activate document => exact .refreshed _ fun synced => ⟨synced.builder, synced.collapse⟩
  | edit e =>
      simp only [update]
      split
      · exact .idle
      · rename_i d active
        simp only [scheduleRefresh]
        split
        · exact .refreshed _ fun synced => ⟨synced.builder, synced.collapse⟩
        · exact .delayed d active e
  | refreshDue revision =>
      simp only [update]
      split
      · exact .idle
      · split
        · exact .refreshed s id
        · exact .idle
  | rebuild => exact .refreshed s id
  | jump p => exact s.turn_reveal p s.selectable_self
  | toggle key => exact redraw (s.move_toggleKey key)
  | selectPrevious => exact .redrawn _ (.fitted { s.panel with selected := _ } rfl)
  | selectNext => exact redraw s.move_selectNext
  | expandSelected => exact redraw (s.move_setSelectedCollapsed false)
  | collapseSelected => exact redraw (s.move_setSelectedCollapsed true)
  | openSelected =>
      simp only [update]
      split
      · exact .idle
      · exact s.turn_reveal _ s.selectable_self
  | scroll lines => exact .redrawn _ (.fitted { s.panel with scroll := _ } rfl)
  | click index clicks onChevron => exact s.turn_click index clicks onChevron
  | resize rows => exact .redrawn _ (.fitted { s.panel with capacity := rows } rfl)
  | reload config =>
      simp only [update]
      split
      · exact .idle
      · exact .refreshed _ fun _ => ⟨rfl, rfl⟩

end Turn

/-! ## Which messages make the outline again -/

/-- The messages that make the outline of the document again: a refresh that is due for its revision, the
request to do so, an edit when edits do not wait, and other settings. -/
inductive Rebuilds (s : Session) : Message → Prop where
  | refreshDue (d : Document) (active : s.document = some d) : Rebuilds s (.refreshDue d.revision)
  | rebuild : Rebuilds s .rebuild
  | edit (d : Document) (active : s.document = some d) (at_once : s.config.debounceMs = 0) (e : Edit) :
      Rebuilds s (.edit e)
  | reload (config : Config) (other : config ≠ s.config) : Rebuilds s (.reload config)

/-- Until the outline is made, such a message leaves the remembered keys alone. -/
theorem Rebuilds.update_eq {s : Session} {m : Message} (rebuilds : s.Rebuilds m) :
    ∃ t : Session, s.update m = t.refreshed ∧ t.panel.toggled = s.panel.toggled ∧ (s.Synced → t.Synced) := by
  cases rebuilds with
  | refreshDue d active => exact ⟨s, by simp [update, active], rfl, id⟩
  | rebuild => exact ⟨s, rfl, rfl, id⟩
  | edit d active at_once e =>
      refine ⟨{ s with document := some (d.edit e) }, ?_, rfl, fun synced => ⟨synced.builder, synced.collapse⟩⟩
      simp [update, active, scheduleRefresh, at_once]
  | reload config other => exact ⟨s.setConfig config, by simp [update, other], rfl, fun _ => ⟨rfl, rfl⟩⟩

/-- Document, outline and settings are left alone, and the answer does not say otherwise. -/
structure Untouched (s : Session) (r : Session × Option Command) : Prop where
  document : r.1.document = s.document
  outline : r.1.outline = s.outline
  config : r.1.config = s.config
  answer : (Command.ofOption r.2).refreshesOutline = false

section Untouched

variable (s : Session)

/-- Showing a place moves the caret at most. -/
theorem reveal_eq (p : Position) :
    ∃ caret, (s.reveal p).1 = { s with caret } ∧ (Command.ofOption (s.reveal p).2).refreshesOutline = false := by
  unfold reveal
  split
  · exact ⟨s.caret, rfl, rfl⟩
  · exact ⟨_, rfl, rfl⟩

theorem untouched_reveal (selected : Option Nat) (p : Position) :
    s.Untouched ((s.select selected).reveal p) := by
  obtain ⟨caret, same, answer⟩ := (s.select selected).reveal_eq p
  refine ⟨?_, ?_, ?_, answer⟩
  all_goals
    rw [same]
    rfl

theorem untouched_of_panel {t : Session} (moved : ∃ panel, Move s panel ∧ t = { s with panel }) :
    s.Untouched (t, some .redraw) := by
  obtain ⟨panel, -, rfl⟩ := moved
  exact ⟨rfl, rfl, rfl, rfl⟩

theorem untouched_click (index clicks : Nat) (onChevron : Bool) :
    s.Untouched (s.click index clicks onChevron) := by
  unfold click
  split
  · exact ⟨rfl, rfl, rfl, rfl⟩
  · split
    · exact ⟨rfl, rfl, rfl, rfl⟩
    · split
      · exact s.untouched_reveal (some index) _
      · exact ⟨rfl, rfl, rfl, rfl⟩

/-- What a message does to the document and its outline: another document becomes active, the outline is
made again, the document is edited and its outline has to wait, or neither is touched. -/
inductive Course (m : Message) : Prop where
  | activated (d : Option Document) (sort : m = .activate d)
  | rebuilt (rebuilds : s.Rebuilds m)
  | delayed (e : Edit) (d : Document) (sort : m = .edit e) (active : s.document = some d)
      (eq : s.update m =
        ({ s with document := some (d.edit e) }, some (.debounce (d.edit e).revision s.config.debounceMs)))
  | untouched (no_edit : ∀ e, m = .edit e → s.document = none) (untouched : s.Untouched (s.update m))

theorem update_course (m : Message) : s.Course m := by
  have idle : s.Untouched (s, none) := ⟨rfl, rfl, rfl, rfl⟩
  have rest : (∀ e, m ≠ .edit e) → s.Untouched (s.update m) → s.Course m := fun other untouched =>
    .untouched (fun e same => absurd same (other e)) untouched
  cases m with
  | activate d => exact .activated d rfl
  | rebuild => exact .rebuilt .rebuild
  | edit e =>
      cases active : s.document with
      | none =>
          have same : s.update (.edit e) = (s, none) := by simp [update, active]
          exact .untouched (fun _ _ => active) (same ▸ idle)
      | some d =>
          by_cases at_once : s.config.debounceMs = 0
          · exact .rebuilt (.edit d active at_once e)
          · exact .delayed e d rfl active (by simp [update, active, scheduleRefresh, at_once])
  | refreshDue revision =>
      cases active : s.document with
      | none =>
          have same : s.update (.refreshDue revision) = (s, none) := by simp [update, active]
          exact rest nofun (same ▸ idle)
      | some d =>
          by_cases present : d.revision = revision
          · exact .rebuilt (present ▸ .refreshDue d active)
          · have same : s.update (.refreshDue revision) = (s, none) := by simp [update, active, present]
            exact rest nofun (same ▸ idle)
  | reload config =>
      by_cases known : config = s.config
      · have same : s.update (.reload config) = (s, none) := by simp [update, known]
        exact rest nofun (same ▸ idle)
      · exact .rebuilt (.reload config known)
  | jump p => exact rest nofun (s.untouched_reveal s.panel.selected p)
  | toggle key => exact rest nofun (s.untouched_of_panel (s.move_toggleKey key))
  | selectPrevious | scroll | resize => exact rest nofun ⟨rfl, rfl, rfl, rfl⟩
  | selectNext => exact rest nofun (s.untouched_of_panel s.move_selectNext)
  | expandSelected => exact rest nofun (s.untouched_of_panel (s.move_setSelectedCollapsed false))
  | collapseSelected => exact rest nofun (s.untouched_of_panel (s.move_setSelectedCollapsed true))
  | openSelected =>
      refine rest nofun ?_
      simp only [update]
      split
      · exact idle
      · exact s.untouched_reveal s.panel.selected _
  | click index clicks onChevron => exact rest nofun (s.untouched_click index clicks onChevron)

end Untouched

/-! ## Any number of messages -/

theorem Move.collapse {s : Session} {panel : Panel} (move : Move s panel) :
    panel.collapseByDefault = s.panel.collapseByDefault := by
  cases move with
  | fitted p default => exact (collapseByDefault_clampTo _ _).trans default
  | selected => rfl

theorem Turn.synced {s : Session} {r : Session × Option Command} (turn : Turn s r)
    (before : s.Synced) : r.1.Synced := by
  cases turn with
  | idle => exact before
  | redrawn panel move => exact ⟨before.builder, move.collapse.trans before.collapse⟩
  | revealed | missed | delayed => exact ⟨before.builder, before.collapse⟩
  | refreshed t synced => exact (synced before).rebuild

theorem Reachable.synced {s : Session} (reach : s.Reachable) : s.Synced := by
  induction reach with
  | new config => exact synced_new config
  | withDocument config d => exact synced_withDocument config d
  | update _ m ih => exact (update_turn _ m).synced ih

end Session

end CodeOutline
