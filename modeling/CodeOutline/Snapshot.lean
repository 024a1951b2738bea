import CodeOutline.Outline

/-!
# Snapshot — a short record of an outline, and how two of them differ
-/

namespace CodeOutline

structure Snapshot where
  revision : UInt64
  nodeCount : Nat
  roots : List String
  deriving DecidableEq, Repr

namespace Snapshot

def ofOutline (o : Outline) : Snapshot :=
  ⟨o.revision, o.nodeCount, o.roots.map (·.name)⟩

/-- The names of one list that are not in another, repeated as often as they stand there. -/
def missing (names others : List String) : List String :=
  names.filter fun n => !others.contains n

/-- What differs, part by part: the revision, the number of nodes, the roots that are new and the
roots that have gone. -/
def changes (before after : Snapshot) : List String :=
  let count := fun (what : String) (a b : Nat) =>
    if a = b then [] else [what ++ ": " ++ toString a ++ " → " ++ toString b]
  let names := fun (what : String) (ns : List String) =>
    if ns.isEmpty then [] else [what ++ " [" ++ ", ".intercalate ns ++ "]"]
  count "revision" before.revision.toNat after.revision.toNat ++
    count "nodes" before.nodeCount after.nodeCount ++
    names "+roots" (missing after.roots before.roots) ++
    names "-roots" (missing before.roots after.roots)

def diff (before after : Snapshot) : Option String :=
  let parts := changes before after
  if parts.isEmpty then none else some ("; ".intercalate parts)

end Snapshot

end CodeOutline
