import CodeOutline.Session.Basic
import CodeOutline.Session.Command

/-!
# Session.Update — what a session does with each message, and its answer

A document that becomes active has its outline made at once. An edit makes it only when the settings
ask for no delay; otherwise the answer is a wait that carries the revision the edit led to, and the
refresh that comes due later is carried out only if that is still the document's revision. No command
at all is the answer to a message that finds nothing to work on.
-/

namespace CodeOutline

/-- What can happen to a session. -/
inductive Message where
  /-- Another document, or none, is being worked on. -/
  | activate (document : Option Document)
  | edit (e : Edit)
  /-- The wait that was asked for at a revision is over. -/
  | refreshDue (revision : UInt64)
  /-- Make the outline again without waiting. -/
  | rebuild
  | jump (target : Position)
  /-- Fold or open the node with a key. -/
  | toggle (key : NodeKey)
  | selectPrevious
  | selectNext
  | expandSelected
  | collapseSelected
  /-- Go to the selected node. -/
  | openSelected
  /-- Scroll by so many rows, downwards if positive. -/
  | scroll (lines : Int)
  | click (index clicks : Nat) (onChevron : Bool)
  /-- The panel now has room for so many rows. -/
  | resize (rows : Nat)
  | reload (config : Config)

namespace Session

def refreshed (s : Session) : Session × Option Command :=
  (s.rebuild, some .refreshOutline)

/-- Bring the outline up to the document: now if there is no delay, or else after it. -/
def scheduleRefresh (s : Session) : Session × Option Command :=
  match s.document with
  | none => (s, none)
  | some d =>
      if s.config.debounceMs = 0 then s.refreshed
      else (s, some (.debounce d.revision s.config.debounceMs))

/-- Move the caret to the nearest place in the document and ask for it to be shown. -/
def reveal (s : Session) (p : Position) : Session × Option Command :=
  match s.document with
  | none => (s, none)
  | some d =>
      let target := clamp p d
      ({ s with caret := some target }, some (.reveal target .center))

def select (s : Session) (index : Option Nat) : Session :=
  { s with panel := { s.panel with selected := index } }

/-- The row number after another. Row numbers are 64-bit words. -/
def rowAfter (i : Nat) : Nat := (i + 1) % UInt64.size

/-- Select the row above; with no selection, the first row. -/
def selectPrevious (s : Session) : Session :=
  (s.select (some (s.panel.selected.elim 0 (· - 1)))).clampPanel

/-- Select the row below, if there is one; with no selection, the first row. -/
def selectNext (s : Session) : Session :=
  if s.rowCount = 0 then s
  else
    match s.panel.selected with
    | none => s.select (some 0)
    | some i => if rowAfter i < s.rowCount then s.select (some (rowAfter i)) else s

/-- Fold or open the selected node, if it can be folded. -/
def setSelectedCollapsed (s : Session) (collapsed : Bool) : Session :=
  match s.panel.selected with
  | none => s
  | some i =>
      match s.nodeAtRow? i with
      | some n =>
          if n.isCollapsible then
            { s with panel := s.panel.setCollapsed n collapsed }.clampPanel
          else s.clampPanel
      | none => s.clampPanel

def toggleKey (s : Session) (key : NodeKey) : Session :=
  match s.outline.find? key with
  | some n => { s with panel := s.panel.toggle n }.clampPanel
  | none => s.clampPanel

/-- A click on a row selects it. On the chevron of a scope it also folds or opens it; anywhere else
a second click goes to the declaration. -/
def click (s : Session) (index clicks : Nat) (onChevron : Bool) : Session × Option Command :=
  match s.nodeAtRow? index with
  | none => (s, none)
  | some n =>
      let s := s.select (some index)
      if onChevron && n.isCollapsible then
        ({ s with panel := s.panel.toggle n }.clampPanel, some .redraw)
      else if 2 ≤ clicks then s.reveal n.position
      else (s, some .redraw)

/-- The session after a message, and the command it answers with. -/
def update (s : Session) : Message → Session × Option Command
  | .activate document => { s with document, caret := none, panel := s.panel.reset }.refreshed
  | .edit e =>
      match s.document with
      | none => (s, none)
      | some d => { s with document := some (d.edit e) }.scheduleRefresh
  | .refreshDue revision =>
      match s.document with
      | none => (s, none)
      | some d => if d.revision = revision then s.refreshed else (s, none)
  | .rebuild => s.refreshed
  | .jump p => s.reveal p
  | .toggle key => (s.toggleKey key, some .redraw)
  | .selectPrevious => (s.selectPrevious, some .redraw)
  | .selectNext => (s.selectNext, some .redraw)
  | .expandSelected => (s.setSelectedCollapsed false, some .redraw)
  | .collapseSelected => (s.setSelectedCollapsed true, some .redraw)
  | .openSelected =>
      match s.selectedNode? with
      | none => (s, none)
      | some n => s.reveal n.position
  | .scroll lines =>
      let offset := (s.panel.scroll + lines).toNat
      ({ s with panel := { s.panel with scroll := offset } }.clampPanel, some .redraw)
  | .click index clicks onChevron => s.click index clicks onChevron
  | .resize rows => ({ s with panel := { s.panel with capacity := rows } }.clampPanel, some .redraw)
  | .reload config =>
      if config = s.config then (s, none) else (s.setConfig config).refreshed

end Session

end CodeOutline
