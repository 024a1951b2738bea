import CodeOutline.Yaml.Event

/-!
# Yaml.Item — events with each alias followed

Anchors have numbers, counted by the names that were known before. An alias stands for the last node of
the document with the number that its name has when it is met. So a name that is given once stands for its
node. One that is given again shares its number with the name that is new after it, and then stands for
that one's node.
-/

namespace CodeOutline.Yaml

/-- One thing met in a document, itself or by an alias. -/
inductive Item where
  | node (e : Event)
  /-- What the node starts with that an alias stands for. -/
  | again (e : Event)
  deriving DecidableEq, Repr

def Event.anchor? : Event → Option String
  | .scalar given _ _ | .sequenceStart given | .mappingStart given => given.anchor
  | .sequenceEnd | .mappingEnd | .alias _ => none

/-- The names that are known with their numbers, and the nodes by number, the latest first. -/
structure Anchors where
  names : List (String × Nat) := []
  nodes : List (Nat × Event) := []

namespace Anchors

def add (a : Anchors) (name : String) (e : Event) : Anchors :=
  let number := a.names.length
  { names := (name, number) :: a.names.filter (·.1 ≠ name), nodes := (number, e) :: a.nodes }

end Anchors

/-- Number the anchors of a document: the aliases by number, up to the first that is not known, and all
the nodes. What was met is kept with the last first. -/
def numberAnchors : (met : List (Event ⊕ Nat)) → Anchors → List Event → List (Event ⊕ Nat) × Anchors × Bool
  | met, a, [] => (met, a, true)
  | met, a, .alias name :: es =>
      match a.names.lookup name with
      | some number => numberAnchors (.inr number :: met) a es
      | none => (met, a, false)
  | met, a, e :: es =>
      match e.anchor? with
      | some name => numberAnchors (.inl e :: met) (a.add name e) es
      | none => numberAnchors (.inl e :: met) a es

/-- The items of a list of events, and whether every alias is known. -/
def itemsOf (events : List Event) : List Item × Bool :=
  let (met, a, known) := numberAnchors [] {} events
  let item := fun (m : Event ⊕ Nat) =>
    match m with
    | .inl e => some (Item.node e)
    | .inr number => (a.nodes.lookup number).map Item.again
  (met.reverse.filterMap item, known)

/-- The items of the one document of a text, up to where it breaks off if it does; the answer says
whether it is whole. -/
def items (text : String) : List Item × Bool :=
  let (tokens, whole) := tokens text
  let (events, complete) := documentEvents tokens
  let (items, known) := itemsOf events
  (items, whole && complete && known)

namespace Item

/-- What remains after the node that a list of items starts with, `depth` collections deep. -/
def skipFrom : Nat → List Item → Option (List Item)
  | _, [] => none
  | d, .node (.sequenceStart _) :: rest => skipFrom (d + 1) rest
  | d, .node (.mappingStart _) :: rest => skipFrom (d + 1) rest
  | d, .node .sequenceEnd :: rest | d, .node .mappingEnd :: rest =>
      match d with
      | 0 => none
      | 1 => some rest
      | d + 2 => skipFrom (d + 1) rest
  | d, _ :: rest => if d = 0 then some rest else skipFrom d rest

def skipNode (items : List Item) : Option (List Item) := skipFrom 0 items

def event : Item → Event
  | .node e | .again e => e

end Item

end CodeOutline.Yaml
