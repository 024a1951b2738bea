/-!
# Config.Basic — the settings of an outline

The settings say how declarations are nested, what happens to a repeated name, which column a
declaration is given, how long a refresh waits after an edit, and whether scopes start folded.

Each choice has the word it is written as (`word`) and is found again by it (`ofWord?`). The delay and
the fixed column are 64-bit words.
-/

namespace CodeOutline

/-- How the end of a scope is recognised. -/
inductive Nesting where
  /-- By counting `{` and `}` over all lines. -/
  | braceDepth
  /-- By a line with `}` that is indented like the declaration. -/
  | indentation
  deriving DecidableEq, Repr

/-- What happens to a declaration whose siblings already hold its name. -/
inductive Duplicates where
  | keep
  /-- The later one is left out and opens no scope. -/
  | dropRepeated
  deriving DecidableEq, Repr

/-- The column a declaration is given. -/
inductive ColumnPolicy where
  /-- Where the declaration was found, for functions and variables; the indentation for the rest. -/
  | matchStart
  | firstNonBlank
  | fixed (column : UInt64)
  /-- None at all. -/
  | omit
  deriving DecidableEq, Repr

/-- The settings that last from one session to the next. -/
structure Config where
  nesting : Nesting := .braceDepth
  duplicates : Duplicates := .keep
  column : ColumnPolicy := .matchStart
  /-- Milliseconds between an edit and the refresh it asks for; with 0 each edit refreshes. -/
  debounceMs : UInt64 := 30
  /-- Whether scopes that hold something start folded. -/
  collapseByDefault : Bool := true
  deriving DecidableEq, Repr

namespace Nesting

def all : List Nesting := [.braceDepth, .indentation]

def word : Nesting → String
  | .braceDepth => "brace_depth"
  | .indentation => "indentation"

def ofWord? (w : String) : Option Nesting := all.find? (·.word = w)

theorem ofWord?_word (n : Nesting) : ofWord? n.word = some n := by cases n <;> decide

end Nesting

namespace Duplicates

def all : List Duplicates := [.keep, .dropRepeated]

def word : Duplicates → String
  | .keep => "keep"
  | .dropRepeated => "drop_repeated"

def ofWord? (w : String) : Option Duplicates := all.find? (·.word = w)

theorem ofWord?_word (d : Duplicates) : ofWord? d.word = some d := by cases d <;> decide

end Duplicates

namespace ColumnPolicy

/-- The words of the four policies, in the order they are named to the user. -/
def words : List String := ["match_start", "first_non_whitespace", "fixed", "omit"]

/-- The word a policy is written as; the column of a fixed one is written beside it. -/
def word : ColumnPolicy → String
  | .matchStart => "match_start"
  | .firstNonBlank => "first_non_whitespace"
  | .fixed _ => "fixed"
  | .omit => "omit"

def ofWord? (w : String) : Option ColumnPolicy :=
  [.matchStart, .firstNonBlank, .omit].find? (·.word = w)

end ColumnPolicy

end CodeOutline
