import CodeOutline.Tree

/-!
# Outline — the forest of a text's declarations

With the forest go the revision of the text it was made from and what was counted on the way.
-/

namespace CodeOutline

/-- What was counted while an outline was built. -/
structure Stats where
  /-- Lines read. -/
  linesScanned : Nat := 0
  /-- Declarations placed in the forest, at any depth. -/
  nodes : Nat := 0
  /-- Declarations left out because their siblings held the name. -/
  duplicatesDropped : Nat := 0
  /-- Scopes still open after the last line. -/
  unclosedScopes : Nat := 0
  deriving DecidableEq, Repr

structure Outline where
  revision : UInt64
  roots : List Node
  stats : Stats
  deriving DecidableEq

namespace Outline

def empty (revision : UInt64) : Outline := ⟨revision, [], {}⟩

def isEmpty (o : Outline) : Bool := o.roots.isEmpty

def nodeCount (o : Outline) : Nat := Forest.size o.roots

/-- The first node, in pre-order, on a line and with a name. -/
def find? (o : Outline) (key : NodeKey) : Option Node := Forest.find? key o.roots

end Outline

end CodeOutline
