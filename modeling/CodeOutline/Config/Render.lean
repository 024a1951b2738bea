import CodeOutline.Config.Basic

/-!
# Config.Render — settings as they are written

There is one line for each field, in a fixed order. A choice is its word, and the fixed column is the
tag `!fixed` and its number.
-/

namespace CodeOutline

def ColumnPolicy.render : ColumnPolicy → String
  | .fixed n => "!fixed " ++ toString n.toNat
  | p => p.word

namespace Config

/-- The fields in the order they are written, each with its text. -/
def entries (c : Config) : List (String × String) :=
  [("nesting", c.nesting.word), ("duplicates", c.duplicates.word), ("column", c.column.render),
   ("debounce_ms", toString c.debounceMs.toNat),
   ("collapse_by_default", if c.collapseByDefault then "true" else "false")]

def renderEntry (e : String × String) : String :=
  e.1 ++ ": " ++ e.2 ++ "\n"

def render (c : Config) : String :=
  String.join (c.entries.map renderEntry)

end Config

end CodeOutline
