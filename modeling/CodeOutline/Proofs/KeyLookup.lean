import CodeOutline.Proofs.Extraction

/-!
# Proofs.KeyLookup — looking a key up in an outline finds the node it names

In any forest the look-up gives the first node in pre-order that has the line and the name
(`find?_eq_some_iff`), and fails only where no node has both. In a built outline no two nodes are on one
line, so there the first node with a node's key is that node itself, with all it holds (`Ordered.find?_key`).
A node is met at some depth by following child positions from the roots, and every node so met is listed
(`mem_nodes_of_atPath?`).
-/

namespace CodeOutline

set_option autoImplicit false

namespace Forest

variable {ns : List Node}

/-- A node that child positions lead to is among the nodes of the forest. -/
theorem mem_nodes_of_atPath? {path : List Nat} {n : Node} (met : atPath? path ns = some n) :
    n ∈ nodes ns := by
  fun_induction atPath? path ns with
  | case1 => simp at met
  | case2 i ns => exact (sublist_nodes ns).subset (List.mem_of_getElem? met)
  | case3 i path ns _ ih =>
      obtain ⟨m, root, inside⟩ := Option.bind_eq_some_iff.1 met
      have listed : m ∈ nodes ns := (sublist_nodes ns).subset (List.mem_of_getElem? root)
      exact (cons_nodes_children_sublist listed).subset (List.mem_cons_of_mem m (ih m inside))

/-- The look-up gives the first node in pre-order with the key. -/
theorem find?_eq_some_iff {key : NodeKey} {n : Node} :
    find? key ns = some n ↔
      n.key = key ∧ ∃ before after, nodes ns = before ++ n :: after ∧ ∀ m ∈ before, m.key ≠ key := by
  rw [find?_eq_find?_nodes, List.find?_eq_some_iff_append]
  simp

/-- The look-up fails where no node has the key. -/
theorem find?_eq_none_iff {key : NodeKey} : find? key ns = none ↔ ∀ m ∈ nodes ns, m.key ≠ key := by
  rw [find?_eq_find?_nodes, List.find?_eq_none]
  simp

/-- Where the lines tell the nodes apart, a node is found by its own key. -/
theorem Ordered.find?_key (ordered : Ordered ns) {n : Node} (member : n ∈ nodes ns) :
    find? n.key ns = some n := by
  cases found : find? n.key ns with
  | none => exact absurd rfl (find?_eq_none_iff.1 found n member)
  | some m =>
      obtain ⟨same, before, after, listed, -⟩ := find?_eq_some_iff.1 found
      have first : m ∈ nodes ns := by rw [listed]; simp
      rw [ordered.eq_of_line_eq first member (congrArg NodeKey.line same)]

end Forest

/-- **Looking up a line and a name is exact.** In any outline it gives the first node in pre-order that is on
the line and has the name, and nothing just when there is none. In a built outline every node, at whatever
depth it is met, is found by its own line and name, with all that it holds. -/
theorem find?_exact :
    (∀ (o : Outline) (line : Nat) (name : String) (n : Node),
      o.find? ⟨line, name⟩ = some n ↔
        (n.line = line ∧ n.name = name) ∧
          ∃ before after, Forest.nodes o.roots = before ++ n :: after ∧
            ∀ m ∈ before, ¬(m.line = line ∧ m.name = name)) ∧
    (∀ (o : Outline) (line : Nat) (name : String),
      o.find? ⟨line, name⟩ = none ↔ ∀ m ∈ Forest.nodes o.roots, ¬(m.line = line ∧ m.name = name)) ∧
    ∀ (b : Builder) (lines : List String) (revision : UInt64) (path : List Nat) (n : Node),
      let o := b.build lines revision
      Forest.atPath? path o.roots = some n → o.find? ⟨n.line, n.name⟩ = some n := by
  have key_iff (m : Node) (line : Nat) (name : String) :
      m.key = ⟨line, name⟩ ↔ m.line = line ∧ m.name = name := by
    simp [Node.key]
  refine ⟨?_, ?_, ?_⟩
  · intro o line name n
    simp only [← key_iff]
    exact Forest.find?_eq_some_iff
  · intro o line name
    simp only [← key_iff]
    exact Forest.find?_eq_none_iff
  · intro b lines revision path n o met
    have ordered : Forest.Ordered o.roots := (Builder.tally_run lines).ordered
    exact ordered.find?_key (Forest.mem_nodes_of_atPath? met)

/-- Two classes of one name with an attribute of one name each: the second attribute is found by its line,
past the first class and the first attribute. -/
theorem find?_exact_past_namesakes :
    let lines := ["class A \x7b", "x = 1", "\x7d", "class A \x7b", "x = 2", "\x7d"]
    let x := Node.leaf .attributeDecl "x" 4 (some 0)
    Forest.atPath? [1, 0] (Builder.build {} lines 0).roots = some x ∧
      (Builder.build {} lines 0).find? ⟨x.line, x.name⟩ = some x := by
  intro lines x
  have met : Forest.atPath? [1, 0] (Builder.build {} lines 0).roots = some x := by
    decide +kernel
  exact ⟨met, find?_exact.2.2 {} lines 0 [1, 0] x met⟩

end CodeOutline
