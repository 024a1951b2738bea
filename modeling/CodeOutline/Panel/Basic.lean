import CodeOutline.Panel.KeySet

/-!
# Panel.Basic — the panel that shows an outline

The panel knows which scopes are folded, which row is selected, how far the rows are scrolled and how
many fit.

A panel holds no nodes. It remembers by key the scopes whose state differs from the default, so that
they keep it in a later outline as long as their line and name stay. The rows of a forest are the nodes
that are not inside a folded one, in pre-order. Three functions go through them: `rows` lists them,
`visibleCount` counts them and `nodeAt?` finds one by its number.
-/

namespace CodeOutline

/-- How an outline is shown. -/
structure Panel where
  /-- The scopes that are not as the default has them. -/
  toggled : KeySet := .empty
  collapseByDefault : Bool := true
  /-- The number of the selected row. -/
  selected : Option Nat := none
  /-- The number of rows scrolled past. -/
  scroll : Nat := 0
  /-- The number of rows that fit. -/
  capacity : Nat := 0
  deriving DecidableEq

structure Row where
  depth : Nat
  name : String
  kind : Kind
  line : Nat
  collapsible : Bool
  expanded : Bool
  deriving DecidableEq, Repr

namespace Panel

/-- Whether what a node holds is folded away. -/
def isCollapsed (p : Panel) (n : Node) : Bool :=
  n.isCollapsible && p.collapseByDefault != decide (n.key ∈ p.toggled)

/-- Fold a node that was open, and open one that was folded. -/
def toggle (p : Panel) (n : Node) : Panel :=
  { p with toggled := if n.key ∈ p.toggled then p.toggled.erase n.key else p.toggled.insert n.key }

def setCollapsed (p : Panel) (n : Node) (collapsed : Bool) : Panel :=
  { p with
    toggled :=
      if collapsed = p.collapseByDefault then p.toggled.erase n.key else p.toggled.insert n.key }

def childrenOf (p : Panel) (n : Node) : List Node :=
  if p.isCollapsed n then [] else n.children

def row (p : Panel) (depth : Nat) (n : Node) : Row :=
  { depth, name := n.name, kind := n.kind, line := n.line
    collapsible := n.isCollapsible
    expanded := n.isCollapsible && !p.isCollapsed n }

mutual

def countNode (p : Panel) : Node → Nat
  | ⟨k, n, l, c, cs⟩ => 1 + if p.isCollapsed ⟨k, n, l, c, cs⟩ then 0 else visibleCount p cs

def visibleCount (p : Panel) : List Node → Nat
  | [] => 0
  | n :: ns => countNode p n + visibleCount p ns

end

mutual

def rowsOfNode (p : Panel) (depth : Nat) : Node → List Row
  | ⟨k, n, l, c, cs⟩ =>
      p.row depth ⟨k, n, l, c, cs⟩ ::
        if p.isCollapsed ⟨k, n, l, c, cs⟩ then [] else rowsAt p (depth + 1) cs

def rowsAt (p : Panel) (depth : Nat) : List Node → List Row
  | [] => []
  | n :: ns => rowsOfNode p depth n ++ rowsAt p depth ns

end

def rows (p : Panel) (nodes : List Node) : List Row := p.rowsAt 0 nodes

mutual

/-- Go `index` rows down from a node: the node found there, or the number of rows still to go when
those of this node are all passed. -/
def seekNode (p : Panel) (index : Nat) : Node → Except Nat Node
  | ⟨k, n, l, c, cs⟩ =>
      match index with
      | 0 => .ok ⟨k, n, l, c, cs⟩
      | i + 1 => if p.isCollapsed ⟨k, n, l, c, cs⟩ then .error i else seek p i cs

def seek (p : Panel) (index : Nat) : List Node → Except Nat Node
  | [] => .error index
  | n :: ns =>
      match seekNode p index n with
      | .ok found => .ok found
      | .error i => seek p i ns

end

def nodeAt? (p : Panel) (nodes : List Node) (index : Nat) : Option Node :=
  (p.seek index nodes).toOption

end Panel

mutual

/-- The keys of a node and of the nodes below it that can be folded, as far down as every node on
the way can be. -/
def Node.collapsibleKeys : Node → List NodeKey
  | ⟨k, n, l, c, cs⟩ =>
      if Node.isCollapsible ⟨k, n, l, c, cs⟩ then ⟨l, n⟩ :: Forest.collapsibleKeys cs else []

def Forest.collapsibleKeys : List Node → List NodeKey
  | [] => []
  | n :: ns => n.collapsibleKeys ++ Forest.collapsibleKeys ns

end

namespace Panel

/-- Forget the scopes that are no longer there to be folded. -/
def retain (p : Panel) (nodes : List Node) : Panel :=
  { p with toggled := p.toggled.filter (Forest.collapsibleKeys nodes).contains }

/-- Keep the selection and the scroll inside a number of rows. -/
def clampTo (p : Panel) (total : Nat) : Panel :=
  if total = 0 then { p with selected := none, scroll := 0 }
  else
    { p with
      selected := p.selected.map (min · (total - 1))
      scroll := min p.scroll (total - max p.capacity 1) }

/-- Forget folding, selection and scroll, as for a document that was just opened. -/
def reset (p : Panel) : Panel :=
  { p with toggled := .empty, selected := none, scroll := 0 }

theorem countNode_eq (p : Panel) (n : Node) : p.countNode n = 1 + p.visibleCount (p.childrenOf n) := by
  cases n; simp only [countNode, childrenOf]; split <;> rfl

theorem rowsOfNode_eq (p : Panel) (d : Nat) (n : Node) :
    p.rowsOfNode d n = p.row d n :: p.rowsAt (d + 1) (p.childrenOf n) := by
  cases n; simp only [rowsOfNode, childrenOf]; split <;> rfl

theorem seekNode_zero (p : Panel) (n : Node) : p.seekNode 0 n = .ok n := by
  cases n; rfl

theorem seekNode_succ (p : Panel) (i : Nat) (n : Node) :
    p.seekNode (i + 1) n = p.seek i (p.childrenOf n) := by
  cases n; simp only [seekNode, childrenOf]; split <;> rfl

end Panel

end CodeOutline
