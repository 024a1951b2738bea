import CodeOutline.Config.Basic
import CodeOutline.Line.Literal
import CodeOutline.Line.Rules

/-!
# Line.Classifier — what a line declares

The rules of a classifier are asked in order, and the first that finds its declaration outside literals
and comments decides. If the name it found is empty the line declares nothing, and no later rule is
asked. A rule added to a classifier is asked last.
-/

namespace CodeOutline.Line

open CodeOutline.Text

structure Declaration where
  kind : Kind
  name : String
  column : Option Nat
  deriving DecidableEq, Repr

/-- Declaration rules in the order they are asked, and the way columns are chosen. -/
structure Classifier where
  rules : List Rule
  column : ColumnPolicy

def indentOf (line : String) : Nat :=
  indent line.toList

/-- The column of a byte offset; an offset that no character starts at counts as the start. -/
def columnAt (line : String) (offset : Nat) : Nat :=
  (charsBefore offset line.toList).getD 0

/-- The column a policy gives to a declaration of some kind found at a byte offset. -/
def columnFor (policy : ColumnPolicy) (kind : Kind) (line : String) (start : Nat) : Option Nat :=
  match policy with
  | .matchStart =>
      match kind with
      | .functionDecl | .variableDecl => some (columnAt line start)
      | _ => some (indentOf line)
  | .firstNonBlank => some (indentOf line)
  | .fixed n => some n.toNat
  | .omit => none

/-- What a rule finds outside literals and comments. -/
def Rule.findInCode (r : Rule) (line : String) : Option Occurrence :=
  (r.find line).filter fun m => !inLiteral line m.start

namespace Classifier

def standard (column : ColumnPolicy) : Classifier := ⟨standardRules, column⟩

def empty (column : ColumnPolicy) : Classifier := ⟨[], column⟩

/-- The classifier with one more rule, asked last. -/
def withRule (c : Classifier) (kind : Kind) (find : String → Option Occurrence) : Classifier :=
  { c with rules := c.rules ++ [⟨kind, find⟩] }

def kinds (c : Classifier) : List Kind :=
  c.rules.map (·.kind)

/-- The first rule that finds its declaration in code decides what a line declares. -/
def classify (c : Classifier) (line : String) : Option Declaration :=
  match c.rules.findSome? fun r => (r.findInCode line).map (r.kind, ·) with
  | some (kind, m) =>
      if m.name.isEmpty then none else some ⟨kind, m.name, columnFor c.column kind line m.start⟩
  | none => none

end Classifier

/-- What a line declares by the standard rules and the default columns. -/
def classify (line : String) : Option Declaration :=
  (Classifier.standard .matchStart).classify line

end CodeOutline.Line
