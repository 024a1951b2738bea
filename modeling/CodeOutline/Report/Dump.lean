import CodeOutline.Report.Value
import CodeOutline.Session.Basic

/-!
# Report.Dump — the whole state of a session as a report

The report is for finding out what went wrong. It shows the document in brief, the outline, the panel
with its rows, and the caret.
-/

namespace CodeOutline.Report

open Value

def position (p : Position) : Value :=
  .object [("line", .number p.line), ("column", .number p.column)]

mutual

def node : Node → Value
  | ⟨k, n, l, c, cs⟩ =>
      .object [("kind", .text k.word), ("name", .text n), ("line", .number l),
        ("column", ofOption .number c), ("children", .array (nodes cs))]

def nodes : List Node → List Value
  | [] => []
  | n :: ns => node n :: nodes ns

end

def stats (s : Stats) : Value :=
  .object [("lines_scanned", .number s.linesScanned), ("nodes", .number s.nodes),
    ("duplicates_dropped", .number s.duplicatesDropped),
    ("unclosed_scopes", .number s.unclosedScopes)]

def outline (o : Outline) : Value :=
  .object [("revision", .number o.revision.toNat), ("roots", .array (nodes o.roots)),
    ("stats", stats o.stats)]

def row (r : Row) : Value :=
  .object [("depth", .number r.depth), ("name", .text r.name), ("kind", .text r.kind.word),
    ("label", .text r.kind.label), ("icon", .text r.kind.icon), ("line", .number r.line),
    ("collapsible", .bool r.collapsible), ("expanded", .bool r.expanded)]

def document (d : Document) : Value :=
  .object [("file_path", ofOption .text d.filePath), ("display_name", .text d.displayName),
    ("revision", .number d.revision.toNat), ("line_count", .number d.lineCount),
    ("char_count", .number d.charCount)]

def panel (s : Session) : Value :=
  .object [("selected_index", ofOption .number s.panel.selected),
    ("scroll_offset", .number s.panel.scroll), ("visible_capacity", .number s.panel.capacity),
    ("collapse_by_default", .bool s.panel.collapseByDefault), ("rows", .array (s.rows.map row))]

/-- The report of a session at a time, in seconds. -/
def dump (timestamp : Nat) (s : Session) : Value :=
  .object [("timestamp", .number timestamp), ("document", ofOption document s.document),
    ("outline", outline s.outline), ("panel", panel s), ("caret", ofOption position s.caret)]

def dumpFileName (timestamp : Nat) : String :=
  toString timestamp ++ "-outline-dump.json"

end CodeOutline.Report
