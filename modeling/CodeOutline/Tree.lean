import CodeOutline.Kind

/-!
# Tree — declarations with the declarations they hold

A forest is a list of nodes. Each operation on forests is one structural recursion through nodes and
their children, so closed terms reduce, and `Forest.induct` is the induction that fits them all: a
property of forests holds if it passes from the children of the first node and from the later nodes
to the whole.
-/

namespace CodeOutline

/-- A place in a text: a line and a column in characters, both counted from zero. -/
structure Position where
  line : Nat
  column : Nat
  deriving DecidableEq, Repr

def Position.origin : Position := ⟨0, 0⟩

/-- A declaration with the declarations it holds. Without a column it is found at the start of its
line. -/
structure Node where
  kind : Kind
  name : String
  line : Nat
  column : Option Nat
  children : List Node

/-- What tells the nodes of an outline apart from one build to the next. -/
structure NodeKey where
  line : Nat
  name : String
  deriving DecidableEq, Repr

namespace Node

def leaf (kind : Kind) (name : String) (line : Nat) (column : Option Nat) : Node :=
  ⟨kind, name, line, column, []⟩

def key (n : Node) : NodeKey := ⟨n.line, n.name⟩

/-- A scope that holds something can be folded away. -/
def isCollapsible (n : Node) : Bool :=
  n.kind.isScope && !n.children.isEmpty

def position (n : Node) : Position := ⟨n.line, n.column.getD 0⟩

/-- The node with one more declaration at the end of those it holds. -/
def push (n child : Node) : Node :=
  { n with children := n.children ++ [child] }

end Node

mutual

def Node.size : Node → Nat
  | ⟨_, _, _, _, cs⟩ => 1 + Forest.size cs

def Forest.size : List Node → Nat
  | [] => 0
  | n :: ns => n.size + Forest.size ns

end

mutual

def Node.listing (d : Nat) : Node → List (Nat × Node)
  | ⟨k, n, l, c, cs⟩ => (d, ⟨k, n, l, c, cs⟩) :: Forest.listing (d + 1) cs

/-- The nodes of a forest in pre-order, each with its depth below `d`. -/
def Forest.listing (d : Nat) : List Node → List (Nat × Node)
  | [] => []
  | n :: ns => n.listing d ++ Forest.listing d ns

end

mutual

def Node.find? (key : NodeKey) : Node → Option Node
  | ⟨k, n, l, c, cs⟩ =>
      if l = key.line ∧ n = key.name then some ⟨k, n, l, c, cs⟩ else Forest.find? key cs

/-- The first node of a forest, in pre-order, with the given key. -/
def Forest.find? (key : NodeKey) : List Node → Option Node
  | [] => none
  | n :: ns => (n.find? key).or (Forest.find? key ns)

end

mutual

/-- Equality of nodes is decided member by member. -/
def Node.decEq : (a b : Node) → Decidable (a = b)
  | ⟨k, n, l, c, cs⟩, ⟨k', n', l', c', cs'⟩ =>
      if same : k = k' ∧ n = n' ∧ l = l' ∧ c = c' then
        match Forest.decEq cs cs' with
        | isTrue h => isTrue (by obtain ⟨rfl, rfl, rfl, rfl⟩ := same; rw [h])
        | isFalse h => isFalse fun e => h (Node.mk.inj e).2.2.2.2
      else isFalse fun e => same (by
        obtain ⟨hk, hn, hl, hc, _⟩ := Node.mk.inj e
        exact ⟨hk, hn, hl, hc⟩)

/-- Equality of forests is decided node by node. -/
def Forest.decEq : (a b : List Node) → Decidable (a = b)
  | [], [] => isTrue rfl
  | [], _ :: _ => isFalse nofun
  | _ :: _, [] => isFalse nofun
  | a :: as, b :: bs =>
      match Node.decEq a b, Forest.decEq as bs with
      | isTrue h, isTrue h' => isTrue (by rw [h, h'])
      | isFalse h, _ => isFalse fun e => h (List.cons.inj e).1
      | _, isFalse h => isFalse fun e => h (List.cons.inj e).2

end

instance : DecidableEq Node := Node.decEq

namespace Forest

/-- The node reached by following child positions from the roots; the empty path reaches none. -/
def atPath? : List Nat → List Node → Option Node
  | [], _ => none
  | [i], ns => ns[i]?
  | i :: path, ns => ns[i]?.bind fun n => atPath? path n.children

end Forest

theorem Node.size_eq (n : Node) : n.size = 1 + Forest.size n.children := by
  cases n; rfl

theorem Node.listing_eq (d : Nat) (n : Node) :
    n.listing d = (d, n) :: Forest.listing (d + 1) n.children := by
  cases n; rfl

theorem Node.find?_eq (key : NodeKey) (n : Node) :
    n.find? key = if n.key = key then some n else Forest.find? key n.children := by
  cases n; cases key; simp [Node.find?, Node.key]

mutual

/-- The part of `Forest.induct` that goes below one node. -/
theorem Node.induct_children {P : List Node → Prop} (nil : P [])
    (cons : ∀ n ns, P n.children → P ns → P (n :: ns)) : (n : Node) → P n.children
  | ⟨_, _, _, _, cs⟩ => Forest.induct nil cons cs

/-- A property of forests that holds of the empty forest, and of each forest when it holds of the
children of its first node and of its later nodes, holds of all. -/
theorem Forest.induct {P : List Node → Prop} (nil : P [])
    (cons : ∀ n ns, P n.children → P ns → P (n :: ns)) : (ns : List Node) → P ns
  | [] => nil
  | n :: ns => cons n ns (Node.induct_children nil cons n) (Forest.induct nil cons ns)

end

/-- A listing has one entry for each node. -/
theorem Forest.length_listing (ns : List Node) (d : Nat) : (Forest.listing d ns).length = Forest.size ns := by
  induction ns using Forest.induct generalizing d with
  | nil => rfl
  | cons n ns ihc ihs =>
    simp only [Forest.listing, Forest.size, Node.listing_eq, Node.size_eq, List.cons_append,
      List.length_cons, List.length_append, ihc, ihs]
    omega

end CodeOutline
