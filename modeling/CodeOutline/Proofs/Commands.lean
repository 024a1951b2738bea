import CodeOutline.Proofs.SessionRuns

/-!
# Proofs.Commands — an answer accounts for all that its message changed

`Accounts s t c` says what the command `c` promises a host that knew the session as `s` and now has `t`:
no command, no change; a wait, another document and nothing else; a redraw, another panel and nothing else;
a revealed place, a caret there and perhaps another row selected; a refresh, the outline that document and
settings call for. Two commands, the empty one and the batch, are never an answer.

All of it can be read off a `Turn` but for one thing. A second click selects its row before it looks for
the document, and if there is none the answer is no command. That this changes nothing after all is an
invariant of the runs: without a document there is no outline (`Bare`), so there is no row to click.
-/

namespace CodeOutline

set_option autoImplicit false

open CodeOutline.Text

section Bounds

variable {α : Type} [LineSource α]

/-- A place on a line that a source has, and no further than the end of that line. -/
def Position.Within (p : Position) (source : α) : Prop :=
  p.line < LineSource.lineCount source ∧ p.column ≤ LineSource.lineLength source p.line

/-- Clamping leads inside every source that has a line. -/
theorem clamp_within (p : Position) {source : α} (some_line : 0 < LineSource.lineCount source) :
    (clamp p source).Within source := by
  have counted : LineSource.lineCount source ≠ 0 := by omega
  simp only [clamp, counted, if_false]
  constructor
  · show min p.line (LineSource.lineCount source - 1) < LineSource.lineCount source
    omega
  · exact Nat.min_le_right _ _

theorem lineCount_document_pos (d : Document) : 0 < LineSource.lineCount d :=
  List.length_pos_iff.2 (pieces_ne_nil d.text.toList)

end Bounds

namespace Session

/-- What a command says about the step from one session to the next. -/
def Accounts (s t : Session) : Option Command → Prop
  | none => t = s
  | some .redraw => t = { s with panel := t.panel }
  | some .refreshOutline => t.Fresh
  | some (.debounce revision _) => ∃ d, t = { s with document := some d } ∧ d.revision = revision
  | some (.reveal place _) =>
      (∃ d, s.document = some d ∧ place.Within d) ∧
        t = { s with panel := { s.panel with selected := t.panel.selected }, caret := some place }
  | some .none => False
  | some (.batch _) => False

/-- Only a command that says so comes with another outline. -/
theorem Accounts.outline_eq {s t : Session} {c : Option Command} (accounts : Accounts s t c)
    (kept : (Command.ofOption c).refreshesOutline = false) : t.outline = s.outline := by
  cases c with
  | none => exact congrArg Session.outline accounts
  | some c =>
      cases c with
      | none | batch => exact accounts.elim
      | redraw =>
          have same : t = { s with panel := t.panel } := accounts
          rw [same]
      | refreshOutline => cases kept
      | debounce revision delay =>
          obtain ⟨d, rfl, -⟩ := accounts
          rfl
      | reveal place mode => rw [accounts.2]

/-- A command that asks for no redraw leaves all that is drawn as it was. -/
theorem Accounts.view_eq {s t : Session} {c : Option Command} (accounts : Accounts s t c)
    (still : (Command.ofOption c).needsRedraw = false) :
    t.outline = s.outline ∧ t.panel = s.panel ∧ t.caret = s.caret := by
  cases c with
  | none =>
      obtain rfl : t = s := accounts
      exact ⟨rfl, rfl, rfl⟩
  | some c =>
      cases c with
      | none | batch => exact accounts.elim
      | redraw | refreshOutline | reveal => cases still
      | debounce revision delay =>
          obtain ⟨d, rfl, -⟩ := accounts
          exact ⟨rfl, rfl, rfl⟩

/-! ## Sessions without a document -/

/-- Without a document there is no outline. -/
def Bare (s : Session) : Prop := s.document = none → s.outline = .empty 0

theorem bare_rebuild (s : Session) : s.rebuild.Bare := by
  intro absent
  have absent : s.document = none := absent
  show freshOutline s.builder s.document = .empty 0
  rw [absent]
  rfl

theorem Turn.bare {s : Session} {r : Session × Option Command} (turn : Turn s r)
    (before : s.Bare) : r.1.Bare := by
  cases turn with
  | idle | redrawn | revealed | missed => exact before
  | refreshed t => exact t.bare_rebuild
  | delayed => exact nofun

theorem Reachable.bare {s : Session} (reach : s.Reachable) : s.Bare := by
  induction reach with
  | new config => exact fun _ => rfl
  | withDocument config d => exact bare_rebuild _
  | update _ m ih => exact (update_turn _ m).bare ih

/-- Without a document there is no row, so the selection can only stay. -/
theorem Bare.select_eq {s : Session} (bare : s.Bare) (absent : s.document = none)
    {selected : Option Nat} (row : s.Selectable selected) : s.select selected = s := by
  rcases row with rfl | ⟨i, -, below⟩
  · rfl
  · have no_row : s.rowCount = 0 := by
      rw [rowCount, bare absent]
      rfl
    omega

/-! ## Every answer -/

theorem Turn.accounts {s : Session} {r : Session × Option Command} (turn : Turn s r)
    (synced : s.Synced) (bare : s.Bare) : Accounts s r.1 r.2 := by
  cases turn with
  | idle => rfl
  | redrawn => rfl
  | revealed d active p => exact ⟨⟨d, active, clamp_within p (lineCount_document_pos d)⟩, rfl⟩
  | missed absent selected row => exact bare.select_eq absent row
  | refreshed t keeps => exact (keeps synced).fresh_rebuild
  | delayed d active e => exact ⟨d.edit e, rfl, rfl⟩

/-- **The command accounts for every change.** Whatever the message, the session after it differs from the
one before only as the command says. So an outline changes only with a command that refreshes it, and what
is drawn only with one that asks for a redraw. -/
theorem Reachable.command_accounts {s : Session} (reach : s.Reachable) (m : Message) :
    let r := s.update m
    Accounts s r.1 r.2 ∧
      ((Command.ofOption r.2).refreshesOutline = false → r.1.outline = s.outline) ∧
      ((Command.ofOption r.2).needsRedraw = false →
        r.1.outline = s.outline ∧ r.1.panel = s.panel ∧ r.1.caret = s.caret) := by
  intro r
  have accounts : Accounts s r.1 r.2 := (s.update_turn m).accounts reach.synced reach.bare
  exact ⟨accounts, accounts.outline_eq, accounts.view_eq⟩

/-- A jump far past the end of a text of one line: the caret is at its end, and the outline is as before. -/
theorem command_accounts_of_far_jump :
    let d : Document := { text := "class A \x7b" }
    let s := withDocument {} d
    let r := s.update (.jump ⟨7, 40⟩)
    s.Reachable ∧ r.2 = some (.reveal ⟨0, 9⟩ .center) ∧ Position.Within ⟨0, 9⟩ d ∧
      r.1.caret = some ⟨0, 9⟩ ∧ r.1.outline = s.outline := by
  intro d s r
  have reach : s.Reachable := .withDocument {} d
  have end_of_text : clamp ⟨7, 40⟩ d = ⟨0, 9⟩ := by decide +kernel
  have answer : r.2 = some (.reveal ⟨0, 9⟩ .center) :=
    congrArg (fun place => some (Command.reveal place .center)) end_of_text
  obtain ⟨accounts, outline, -⟩ := reach.command_accounts (.jump ⟨7, 40⟩)
  rw [answer] at accounts outline
  obtain ⟨⟨d', active, within⟩, same⟩ := accounts
  obtain rfl : d = d' := Option.some.inj active
  exact ⟨reach, answer, within, congrArg Session.caret same, outline rfl⟩

end Session

end CodeOutline
