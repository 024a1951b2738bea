import CodeOutline.Line.Classifier
import CodeOutline.Outline

/-!
# Builder — an outline built from lines, in one pass

Each declaration joins the innermost scope that is still open, or the roots when none is. A scope is
kept aside while it is open and joins its own parent when it closes. It is remembered with an anchor:
the brace depth before its line, or the indentation of its line.

* Counting braces, a line closes every open scope whose anchor the depth has come back to, innermost
  first, and stops at the first it has not come back to.
* By indentation, a line with a `}` closes the innermost scope if it is indented just like it, and
  no other.

Scopes that the last line leaves open are closed there and counted. When repeated names are dropped, a
declaration whose siblings so far hold its name is left out and opens no scope. A scope that is still
open is none of its parent's children yet, and no declaration joins that parent in the meantime.
-/

namespace CodeOutline

open CodeOutline.Line

structure OpenScope where
  node : Node
  anchor : Int
  deriving DecidableEq

/-- How far a build has come: the finished roots, the open scopes from the innermost outwards, the
brace depth, and the counts. -/
structure Progress where
  roots : List Node := []
  scopes : List OpenScope := []
  depth : Int := 0
  stats : Stats := {}
  deriving DecidableEq

namespace Progress

/-- Where the next declaration goes: the children of the innermost scope, or the roots. -/
def siblings (p : Progress) : List Node :=
  match p.scopes with
  | [] => p.roots
  | top :: _ => top.node.children

def attach (p : Progress) (n : Node) : Progress :=
  match p.scopes with
  | [] => { p with roots := p.roots ++ [n] }
  | top :: outer => { p with scopes := { top with node := top.node.push n } :: outer }

def enter (p : Progress) (n : Node) (anchor : Int) : Progress :=
  { p with scopes := ⟨n, anchor⟩ :: p.scopes }

/-- Close the innermost scope, if there is one: it joins what is around it. -/
def leave (p : Progress) : Progress :=
  match p.scopes with
  | [] => p
  | top :: outer => { p with scopes := outer }.attach top.node

/-- Close up to a number of scopes, innermost first, as long as `closes` holds of the anchor. -/
def leaveUpTo (closes : Int → Bool) : Nat → Progress → Progress
  | 0, p => p
  | n + 1, p =>
      match p.scopes with
      | [] => p
      | top :: _ => if closes top.anchor then leaveUpTo closes n p.leave else p

def leaveWhile (closes : Int → Bool) (p : Progress) : Progress :=
  leaveUpTo closes p.scopes.length p

theorem length_scopes_attach (p : Progress) (n : Node) :
    (p.attach n).scopes.length = p.scopes.length := by
  unfold attach; split <;> simp_all

theorem length_scopes_leave (p : Progress) : p.leave.scopes.length = p.scopes.length - 1 := by
  unfold leave; split <;> simp_all [length_scopes_attach]

/-- Closing goes on after a scope that closes, and ends at one that does not. -/
theorem leaveWhile_eq (closes : Int → Bool) (p : Progress) :
    p.leaveWhile closes = match p.scopes with
      | [] => p
      | top :: _ => if closes top.anchor then p.leave.leaveWhile closes else p := by
  cases h : p.scopes with
  | nil => simp [leaveWhile, h, leaveUpTo]
  | cons top outer => simp [leaveWhile, h, leaveUpTo, length_scopes_leave]

end Progress

/-- The number of `{` less the number of `}` in a line. -/
def braceDelta (line : String) : Int :=
  line.toList.foldl (fun d c => if c = '{' then d + 1 else if c = '}' then d - 1 else d) 0

/-- A classifier, a way to nest and a way to treat repeated names. -/
structure Builder where
  classifier : Classifier := Classifier.standard .matchStart
  nesting : Nesting := .braceDepth
  duplicates : Duplicates := .keep

namespace Builder

def ofConfig (c : Config) : Builder :=
  ⟨Classifier.standard c.column, c.nesting, c.duplicates⟩

/-- What a scope declared on this line is remembered by. -/
def anchor (b : Builder) (p : Progress) (line : String) : Int :=
  match b.nesting with
  | .braceDepth => p.depth
  | .indentation => indentOf line

/-- Whether a name is refused among the siblings. -/
def refuses (b : Builder) (p : Progress) (name : String) : Bool :=
  match b.duplicates with
  | .keep => false
  | .dropRepeated => p.siblings.any (·.name == name)

def declare (b : Builder) (p : Progress) (line : String) (d : Declaration) : Progress :=
  if b.refuses p d.name then
    { p with stats := { p.stats with duplicatesDropped := p.stats.duplicatesDropped + 1 } }
  else
    let node := Node.leaf d.kind d.name p.stats.linesScanned d.column
    let placed := if d.kind.isScope then p.enter node (b.anchor p line) else p.attach node
    { placed with stats := { p.stats with nodes := p.stats.nodes + 1 } }

/-- Close the scopes that a line closes. -/
def close (b : Builder) (p : Progress) (line : String) : Progress :=
  match b.nesting with
  | .braceDepth =>
      let depth := p.depth + braceDelta line
      { p with depth }.leaveWhile (depth ≤ ·)
  | .indentation =>
      match p.scopes with
      | [] => p
      | top :: _ =>
          if line.toList.contains '}' ∧ top.anchor = indentOf line then p.leave else p

/-- Take in one line: its declaration, then what it closes. -/
def step (b : Builder) (p : Progress) (line : String) : Progress :=
  let declared := match b.classifier.classify line with
    | some d => b.declare p line d
    | none => p
  let closed := b.close declared line
  { closed with stats := { closed.stats with linesScanned := closed.stats.linesScanned + 1 } }

def run (b : Builder) (lines : List String) : Progress :=
  lines.foldl b.step {}

def build (b : Builder) (lines : List String) (revision : UInt64) : Outline :=
  let p := b.run lines
  { revision
    roots := (p.leaveWhile fun _ => true).roots
    stats := { p.stats with unclosedScopes := p.scopes.length } }

end Builder

end CodeOutline
