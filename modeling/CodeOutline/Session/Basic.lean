import CodeOutline.Navigation
import CodeOutline.Panel.Basic

/-!
# Session.Basic — the state of an outline view

A session holds the document being worked on, its outline, the panel that shows it, the settings, and the
caret that was last asked for.

The builder made from the settings is kept beside them. An outline is made afresh by `rebuild`, which
then drops what the panel remembers of scopes that have gone and brings selection and scroll back
inside the rows.
-/

namespace CodeOutline

structure Session where
  document : Option Document
  outline : Outline
  panel : Panel
  config : Config
  caret : Option Position
  builder : Builder

namespace Session

/-- The outline that a document, or the lack of one, calls for. -/
def freshOutline (b : Builder) : Option Document → Outline
  | some d => b.build (LineSource.lines d) d.revision
  | none => .empty 0

def rowCount (s : Session) : Nat := s.panel.visibleCount s.outline.roots

def rows (s : Session) : List Row := s.panel.rows s.outline.roots

def nodeAtRow? (s : Session) (index : Nat) : Option Node := s.panel.nodeAt? s.outline.roots index

def selectedNode? (s : Session) : Option Node := s.panel.selected.bind s.nodeAtRow?

def clampPanel (s : Session) : Session :=
  { s with panel := s.panel.clampTo s.rowCount }

/-- Make the outline again from the document, and fit the panel to it. -/
def rebuild (s : Session) : Session :=
  let outline := freshOutline s.builder s.document
  { s with outline, panel := s.panel.retain outline.roots }.clampPanel

def new (config : Config) : Session :=
  { document := none
    outline := .empty 0
    panel := { collapseByDefault := config.collapseByDefault }
    config
    caret := none
    builder := .ofConfig config }

def withDocument (config : Config) (d : Document) : Session :=
  { new config with document := some d }.rebuild

/-- Take on other settings; the outline follows them when it is next made. -/
def setConfig (s : Session) (config : Config) : Session :=
  { s with
    config
    builder := .ofConfig config
    panel := { s.panel with collapseByDefault := config.collapseByDefault } }

end Session

end CodeOutline
