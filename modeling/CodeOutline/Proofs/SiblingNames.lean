import CodeOutline.Proofs.Extraction

/-!
# Proofs.SiblingNames — names among siblings, and the lines that are left out for them

`Forest.under` reads off a forest the nodes directly under the node on some line, or the roots. A builder
that drops repeated names looks at the innermost open scope only as far as it is filled in. That is enough:
what it sees are the nodes that the finished outline has there on earlier lines (`mem_siblings_iff`,
`under_innermost_iff`), because no declaration joins a scope while another is open inside it. So a line is
left out exactly when the outline has its name on an earlier line in the same place, and no two siblings
of the outline share a name.

Both are read off the lineage of the forest, to which each line adds at most one entry at the end and in
which nothing ever changes (`lineage_run_append`): two siblings are two entries with the same path.
-/

namespace CodeOutline

set_option autoImplicit false

open CodeOutline.Line

namespace Forest

/-- The nodes directly under the node on a line; the roots, if no line is given. -/
def under (ns : List Node) : Option Nat → List Node
  | none => ns
  | some line => ((nodes ns).filter (·.line = line)).flatMap (·.children)

def DistinctSiblings (ns : List Node) : Prop :=
  (ns.map (·.name)).Nodup ∧ ∀ n ∈ nodes ns, (n.children.map (·.name)).Nodup

instance (ns : List Node) : Decidable (DistinctSiblings ns) :=
  inferInstanceAs (Decidable (_ ∧ _))

/-- Two entries of a lineage that are side by side have different names. -/
def Apart (a b : List (Nat × Declaration) × (Nat × Declaration)) : Prop :=
  a.1 = b.1 → a.2.2.name ≠ b.2.2.name

variable {ns : List Node} {path : List (Nat × Declaration)} {e : Nat × Declaration}

theorem mem_under_some {line : Nat} {s : Node} :
    s ∈ under ns (some line) ↔ ∃ n ∈ nodes ns, n.line = line ∧ s ∈ n.children := by
  simp [under, and_assoc]

/-- The entries under a path are those of the nodes under its end. -/
theorem exists_under_of_mem_lineage (member : (path, e) ∈ lineage Node.entry [] ns) :
    ∃ s ∈ under ns (path.getLast?.map (·.1)), s.entry = e := by
  rw [lineage_entry_eq, List.mem_map] at member
  obtain ⟨⟨above, s⟩, placed, same⟩ := member
  obtain ⟨rfl, rfl⟩ := Prod.mk.inj same
  refine ⟨s, ?_, rfl⟩
  obtain ⟨rfl, root⟩ | ⟨outer, parent, rfl, known, child⟩ := mem_lineage_cases placed
  · exact root
  · simp only [List.map_append, List.map_cons, List.map_nil, List.getLast?_concat, Option.map_some]
    exact mem_under_some.2 ⟨parent, mem_nodes_of_mem_lineage known, rfl, child⟩

def Leads (ns : List Node) (path : List (Nat × Declaration)) : Prop :=
  path = [] ∨ ∃ outer e, path = outer ++ [e] ∧ (outer, e) ∈ lineage Node.entry [] ns

/-- The nodes under the end of a path that leads somewhere are entered under that path. -/
theorem mem_lineage_of_mem_under (ordered : Ordered ns) (leads : Leads ns path) {s : Node}
    (member : s ∈ under ns (path.getLast?.map (·.1))) :
    (path, s.entry) ∈ lineage Node.entry [] ns := by
  rw [lineage_entry_eq, List.mem_map]
  obtain rfl | ⟨outer, e, rfl, placed⟩ := leads
  · exact ⟨([], s), mem_lineage_root member, rfl⟩
  · rw [lineage_entry_eq, List.mem_map] at placed
    obtain ⟨⟨above, n⟩, placed, same⟩ := placed
    obtain ⟨rfl, rfl⟩ := Prod.mk.inj same
    simp only [List.getLast?_concat, Option.map_some] at member
    obtain ⟨m, known, line, child⟩ := mem_under_some.1 member
    obtain rfl : m = n := ordered.eq_of_line_eq known (mem_nodes_of_mem_lineage placed) line
    exact ⟨(above ++ [m], s), mem_lineage_child placed child, by simp⟩

/-! ## Distinct names -/

theorem map_sublist_lineage (above : List (Nat × Declaration)) (ns : List Node) :
    (ns.map fun n => (above, n.entry)).Sublist (lineage Node.entry above ns) := by
  induction ns with
  | nil => exact .slnil
  | cons n ns ih =>
      rw [List.map_cons, lineage, Node.lineage_eq, List.cons_append]
      exact (ih.trans (List.sublist_append_right _ _)).cons_cons _

/-- The lineage of what a node holds is a part of the lineage of the forest. -/
theorem exists_lineage_children_sublist {n : Node} (member : n ∈ nodes ns)
    (above : List (Nat × Declaration)) :
    ∃ inner, (lineage Node.entry inner n.children).Sublist (lineage Node.entry above ns) := by
  induction ns using Forest.induct generalizing above with
  | nil => simp at member
  | cons m ms below after =>
      rw [nodes_cons] at member
      simp only [lineage, Node.lineage_eq, List.cons_append]
      rcases List.mem_cons.1 member with rfl | member
      · exact ⟨_, (List.sublist_append_left _ _).cons _⟩
      rcases List.mem_append.1 member with inside | later
      · obtain ⟨inner, sub⟩ := below inside (above ++ [m.entry])
        exact ⟨inner, (sub.trans (List.sublist_append_left _ _)).cons _⟩
      · obtain ⟨inner, sub⟩ := after later above
        exact ⟨inner, (sub.trans (List.sublist_append_right _ _)).cons _⟩

theorem nodup_names_of_apart {above : List (Nat × Declaration)} {ms : List Node}
    (apart : (lineage Node.entry above ms).Pairwise Apart) : (ms.map (·.name)).Nodup := by
  have roots := apart.sublist (map_sublist_lineage above ms)
  rw [List.pairwise_map] at roots
  exact List.pairwise_map.2 (roots.imp fun differ => differ rfl)

theorem distinctSiblings_of_apart (apart : (lineage Node.entry [] ns).Pairwise Apart) :
    DistinctSiblings ns := by
  refine ⟨nodup_names_of_apart apart, fun n member => ?_⟩
  obtain ⟨inner, sub⟩ := exists_lineage_children_sublist member []
  exact nodup_names_of_apart (apart.sublist sub)

/-- Two nodes in the same place with the same name are one. -/
theorem DistinctSiblings.eq_of_name_eq (distinct : DistinctSiblings ns) (ordered : Ordered ns)
    {line : Option Nat} {s t : Node} (hs : s ∈ under ns line) (ht : t ∈ under ns line)
    (same : s.name = t.name) : s = t := by
  cases line with
  | none => exact List.inj_on_of_nodup_map distinct.1 hs ht same
  | some line =>
      obtain ⟨n, hn, on_line, hs⟩ := mem_under_some.1 hs
      obtain ⟨m, hm, on_line', ht⟩ := mem_under_some.1 ht
      obtain rfl : n = m := ordered.eq_of_line_eq hn hm (on_line.trans on_line'.symm)
      exact List.inj_on_of_nodup_map (distinct.2 n hn) hs ht same

theorem DistinctSiblings.apart (distinct : DistinctSiblings ns) (ordered : Ordered ns) :
    (lineage Node.entry [] ns).Pairwise Apart := by
  have increasing : (lineage Node.entry [] ns).Pairwise fun a b => a.2.1 < b.2.1 := by
    have entries := ordered_iff_entries.1 ordered
    rw [Forest.entries, ← map_snd_lineage Node.entry [], List.pairwise_map] at entries
    exact entries
  refine increasing.imp_of_mem ?_
  rintro ⟨path, a⟩ ⟨path', b⟩ ha hb lt same_path same_name
  obtain rfl : path = path' := same_path
  obtain ⟨s, hs, rfl⟩ := exists_under_of_mem_lineage ha
  obtain ⟨t, ht, rfl⟩ := exists_under_of_mem_lineage hb
  obtain rfl : s = t := distinct.eq_of_name_eq ordered hs ht same_name
  exact Nat.lt_irrefl _ lt

end Forest

/-! ## The innermost open scope -/

namespace Progress

open Forest

def innermost (p : Progress) : Option Nat := p.scopes.head?.map (·.node.line)

theorem innermost_eq_path (p : Progress) : p.innermost = p.path.getLast?.map (·.1) := by
  rw [innermost, path, List.getLast?_reverse, marks]
  cases p.scopes <;> rfl

/-- A finished node is in the forest as it is. -/
theorem mem_nodes_forest_attach (p : Progress) (n : Node) : n ∈ nodes (p.attach n).forest := by
  induction opened : p.scopes generalizing p n with
  | nil =>
      have attached : (p.attach n).scopes = [] := by simp [attach, opened]
      rw [forest_of_no_scope attached]
      apply (sublist_nodes _).subset
      simp [attach, opened]
  | cons top outer ih =>
      have closed : (p.attach n).leave = Progress.attach { p with scopes := outer } (top.node.push n) := by
        simp [leave, attach, opened]
      rw [← forest_leave, closed]
      have holder := ih { p with scopes := outer } (top.node.push n) rfl
      apply (cons_nodes_children_sublist holder).subset
      apply List.mem_cons_of_mem
      apply (sublist_nodes _).subset
      simp [Node.push]

/-- The siblings of the next declaration are what the forest has under the innermost open scope. -/
theorem mem_siblings_iff {p : Progress} (ordered : Ordered p.forest) {s : Node} :
    s ∈ p.siblings ↔ s ∈ under p.forest p.innermost := by
  cases opened : p.scopes with
  | nil => simp [siblings, innermost, opened, under, forest_of_no_scope opened]
  | cons top outer =>
      have closed : p.leave = Progress.attach { p with scopes := outer } top.node := by
        simp [leave, opened]
      have known : top.node ∈ nodes p.forest := by
        rw [← forest_leave, closed]
        exact mem_nodes_forest_attach _ _
      simp only [siblings, innermost, opened, List.head?_cons, Option.map_some, mem_under_some]
      constructor
      · intro child
        exact ⟨top.node, known, rfl, child⟩
      · rintro ⟨n, member, line, child⟩
        obtain rfl : n = top.node := ordered.eq_of_line_eq member known line
        exact child

theorem leads_path (p : Progress) : Leads p.forest p.path := by
  cases opened : p.scopes with
  | nil => exact .inl (by simp [path, marks, opened])
  | cons top outer =>
      let q : Progress := { p with scopes := outer }
      have closed : p.leave = q.attach top.node := by simp [leave, opened, q]
      refine .inr ⟨q.path, top.node.entry, path_of_scopes opened, ?_⟩
      rw [← forest_leave, closed, lineage_forest_attach, Node.lineage_eq]
      simp

end Progress

namespace Builder

open Forest

variable {b : Builder} {lines : List String} {p : Progress} {line : String}

/-- A name is refused when the forest has it under the innermost open scope. -/
theorem refuses_iff (drop : b.duplicates = .dropRepeated) (ordered : Ordered p.forest) (name : String) :
    b.refuses p name = true ↔ ∃ e, (p.path, e) ∈ lineage Node.entry [] p.forest ∧ e.2.name = name := by
  simp only [refuses, drop, List.any_eq_true, beq_iff_eq]
  constructor
  · rintro ⟨s, member, rfl⟩
    rw [Progress.mem_siblings_iff ordered, Progress.innermost_eq_path] at member
    exact ⟨s.entry, mem_lineage_of_mem_under ordered p.leads_path member, rfl⟩
  · rintro ⟨e, member, rfl⟩
    obtain ⟨s, under, rfl⟩ := exists_under_of_mem_lineage member
    rw [← Progress.innermost_eq_path, ← Progress.mem_siblings_iff ordered] at under
    exact ⟨s, under, rfl⟩

/-- A line that adds nothing opens no scope. -/
theorem marks_step_of_not_taken (not_taken : b.taken p line = none) :
    (b.step p line).marks <:+ p.marks := by
  have declared : (b.declared p line).marks = p.marks := by
    rw [b.marks_declared, not_taken]
    rfl
  exact declared ▸ b.marks_close_suffix (b.declared p line) line

/-- Later lines only add to the lineage, at its end. -/
theorem lineage_run_append (b : Builder) (lines more : List String) :
    ∃ late, lineage Node.entry [] (b.run (lines ++ more)).forest =
        lineage Node.entry [] (b.run lines).forest ++ late ∧
      ∀ a ∈ late, lines.length ≤ a.2.1 := by
  induction more using List.reverseRecOn with
  | nil => exact ⟨[], by simp, nofun⟩
  | append_singleton more line ih =>
      obtain ⟨late, earlier, after⟩ := ih
      refine ⟨late ++ ((b.taken (b.run (lines ++ more)) line).map
        ((b.run (lines ++ more)).path, ·)).toList, ?_, ?_⟩
      · rw [← List.append_assoc, b.run_concat, b.lineage_forest_step, earlier, List.append_assoc]
      · intro a member
        rcases List.mem_append.1 member with known | own
        · exact after a known
        · rw [Option.toList_map] at own
          obtain ⟨e, taken, rfl⟩ := List.mem_map.1 own
          have number := (tally_run (lines ++ more)).line_of_taken taken
          rw [number, List.length_append]
          omega

theorem apart_step (drop : b.duplicates = .dropRepeated) (ordered : Ordered p.forest)
    (apart : (lineage Node.entry [] p.forest).Pairwise Apart) :
    (lineage Node.entry [] (b.step p line).forest).Pairwise Apart := by
  rw [b.lineage_forest_step]
  cases taken : b.taken p line with
  | none => simpa using apart
  | some e =>
      obtain ⟨d, accepted, rfl⟩ := Option.map_eq_some_iff.1 taken
      have free := (Option.filter_eq_some_iff.1 accepted).2
      simp only [Option.map_some, Option.toList_some]
      refine List.pairwise_append.2 ⟨apart, List.pairwise_singleton _ _, ?_⟩
      rintro ⟨path, a⟩ member _ own same_path same_name
      obtain rfl := List.mem_singleton.1 own
      obtain rfl : path = p.path := same_path
      have refused := (refuses_iff drop ordered d.name).2 ⟨a, member, same_name⟩
      simp [refused] at free

theorem apart_run (drop : b.duplicates = .dropRepeated) (lines : List String) :
    (lineage Node.entry [] (b.run lines).forest).Pairwise Apart := by
  induction lines using List.reverseRecOn with
  | nil => exact .nil
  | append_singleton lines line ih =>
      rw [b.run_concat]
      exact apart_step drop (tally_run lines).ordered ih

/-! ## Which lines have no node -/

/-- A line has a node in the end exactly when it added one. -/
theorem no_node_iff_not_taken (b : Builder) (lines : List String) (line : String) (more : List String) :
    (∀ n ∈ nodes (b.run (lines ++ line :: more)).forest, n.line ≠ lines.length) ↔
      b.taken (b.run lines) line = none := by
  have tally : b.Tally lines (b.run lines) := tally_run lines
  obtain ⟨late, lineages, after⟩ := lineage_run_append b (lines ++ [line]) more
  have listed : entries (b.run (lines ++ line :: more)).forest =
      entries (b.run lines).forest ++ (b.taken (b.run lines) line).toList ++ late.map (·.2) := by
    rw [← b.entries_forest_step, ← b.run_concat, entries, entries, ← map_snd_lineage Node.entry [],
      ← map_snd_lineage Node.entry [], ← List.map_append, ← lineages, List.append_assoc,
      List.singleton_append]
  have by_entries : (∀ n ∈ nodes (b.run (lines ++ line :: more)).forest, n.line ≠ lines.length) ↔
      ∀ e ∈ entries (b.run (lines ++ line :: more)).forest, e.1 ≠ lines.length := by
    simp [entries, Node.entry]
  rw [by_entries, listed]
  constructor
  · intro absent
    apply Option.eq_none_iff_forall_ne_some.2
    intro e taken
    have member : e ∈ (b.taken (b.run lines) line).toList := by simp [taken]
    exact absent e (by simp [member]) (tally.line_of_taken member)
  · intro not_taken e member
    simp only [not_taken, Option.toList_none, List.append_nil, List.mem_append, List.mem_map] at member
    rcases member with earlier | ⟨a, later, rfl⟩
    · exact Nat.ne_of_lt (tally.line_lt earlier)
    · have past := after a later
      simp only [List.length_append, List.length_singleton] at past
      omega

/-- What the finished outline has on earlier lines under the scope that was innermost is what the build
had there at the time. -/
theorem under_innermost_iff (b : Builder) (lines more : List String) (name : String) :
    (∃ s ∈ under (b.run (lines ++ more)).forest (b.run lines).innermost,
        s.line < lines.length ∧ s.name = name) ↔
      ∃ e, ((b.run lines).path, e) ∈ lineage Node.entry [] (b.run lines).forest ∧ e.2.name = name := by
  have tally : b.Tally lines (b.run lines) := tally_run lines
  have ordered : Ordered (b.run (lines ++ more)).forest := (tally_run (lines ++ more)).ordered
  obtain ⟨late, lineages, after⟩ := lineage_run_append b lines more
  have leads : Leads (b.run (lines ++ more)).forest (b.run lines).path := by
    refine (b.run lines).leads_path.imp_right ?_
    rintro ⟨outer, e, path, known⟩
    exact ⟨outer, e, path, by rw [lineages]; exact List.mem_append_left _ known⟩
  rw [Progress.innermost_eq_path]
  constructor
  · rintro ⟨s, member, earlier, rfl⟩
    have placed := mem_lineage_of_mem_under ordered leads member
    rw [lineages] at placed
    rcases List.mem_append.1 placed with known | later
    · exact ⟨s.entry, known, rfl⟩
    · have past : lines.length ≤ s.line := after _ later
      omega
  · rintro ⟨e, known, rfl⟩
    have placed : ((b.run lines).path, e) ∈ lineage Node.entry [] (b.run (lines ++ more)).forest := by
      rw [lineages]
      exact List.mem_append_left _ known
    obtain ⟨s, member, rfl⟩ := exists_under_of_mem_lineage placed
    exact ⟨s, member, tally.line_lt (mem_entries_of_mem_lineage known), rfl⟩

/-! ## When no name is repeated -/

section Keep

variable (c : Classifier) (nesting : Nesting)

/-- A line whose name is not refused is taken in as if all names were kept. -/
theorem step_dropRepeated_eq_keep
    (free : ∀ d, c.classify line = some d →
      (⟨c, nesting, .dropRepeated⟩ : Builder).refuses p d.name = false) :
    (⟨c, nesting, .dropRepeated⟩ : Builder).step p line =
      (⟨c, nesting, .keep⟩ : Builder).step p line := by
  have declared : (⟨c, nesting, .dropRepeated⟩ : Builder).declared p line =
      (⟨c, nesting, .keep⟩ : Builder).declared p line := by
    unfold Builder.declared
    cases found : c.classify line with
    | none => rfl
    | some d =>
        have kept : (⟨c, nesting, .keep⟩ : Builder).refuses p d.name = false := rfl
        simp only [declare, free d found, kept]
        rfl
  rw [step_eq, step_eq, declared]
  rfl

theorem run_dropRepeated_eq_keep
    (apart : (lineage Node.entry [] ((⟨c, nesting, .keep⟩ : Builder).run lines).forest).Pairwise Apart) :
    (⟨c, nesting, .dropRepeated⟩ : Builder).run lines = (⟨c, nesting, .keep⟩ : Builder).run lines := by
  let keep : Builder := ⟨c, nesting, .keep⟩
  induction lines using List.reverseRecOn with
  | nil => rfl
  | append_singleton lines line ih =>
      rw [run_concat, lineage_forest_step, taken_of_keep _ rfl, List.pairwise_append] at apart
      obtain ⟨before, -, across⟩ := apart
      rw [run_concat, run_concat, ih before]
      apply step_dropRepeated_eq_keep
      intro d found
      apply Bool.eq_false_iff.2
      intro refused
      obtain ⟨e, known, same_name⟩ :=
        (refuses_iff rfl (tally_run (b := keep) lines).ordered d.name).1 refused
      have own : ((keep.run lines).path, (keep.run lines).stats.linesScanned, d) ∈
          (((c.classify line).map ((keep.run lines).stats.linesScanned, ·)).map
            ((keep.run lines).path, ·)).toList := by
        simp [found]
      exact across _ known _ own rfl same_name

end Keep

/-- **Dropping repeated names leaves siblings with different names and drops nothing else.** A line that
declares something has no node exactly when the innermost scope that was open before it, or the roots if
none was, has a node of that name on an earlier line; and then the line opens no scope. Where all names can
be kept without a repetition, dropping changes nothing. -/
theorem build_drops_repeated (c : Classifier) (nesting : Nesting) (lines : List String)
    (revision : UInt64) :
    let b : Builder := ⟨c, nesting, .dropRepeated⟩
    let o := b.build lines revision
    let kept := Builder.build ⟨c, nesting, .keep⟩ lines revision
    DistinctSiblings o.roots ∧
      (∀ j line d, lines[j]? = some line → c.classify line = some d →
        ((∀ n ∈ nodes o.roots, n.line ≠ j) ↔
          ∃ s ∈ under o.roots (b.run (lines.take j)).innermost, s.line < j ∧ s.name = d.name) ∧
        ((∀ n ∈ nodes o.roots, n.line ≠ j) →
          (b.run (lines.take (j + 1))).marks <:+ (b.run (lines.take j)).marks)) ∧
      (DistinctSiblings kept.roots → o = kept) := by
  intro b o kept
  refine ⟨distinctSiblings_of_apart (apart_run rfl lines), ?_, ?_⟩
  · intro j line d at_j found
    obtain ⟨in_range, here⟩ := List.getElem?_eq_some_iff.1 at_j
    have length : (lines.take j).length = j := by simp; omega
    have split : lines.take j ++ line :: lines.drop (j + 1) = lines := by
      rw [← here, List.getElem_cons_drop, List.take_append_drop]
    have next : lines.take (j + 1) = lines.take j ++ [line] := by
      rw [← here, List.take_succ_eq_append_getElem in_range]
    have no_node := no_node_iff_not_taken b (lines.take j) line (lines.drop (j + 1))
    have under_open := under_innermost_iff b (lines.take j) (line :: lines.drop (j + 1)) d.name
    rw [split, length] at no_node under_open
    have ordered : Ordered (b.run (lines.take j)).forest := (tally_run (lines.take j)).ordered
    constructor
    · have drop : b.duplicates = .dropRepeated := rfl
      refine no_node.trans (Iff.trans ?_ under_open.symm)
      rw [← refuses_iff drop ordered]
      cases refused : b.refuses (b.run (lines.take j)) d.name with
      | true => simp [b.taken_of_refused found refused]
      | false => simp [b.taken_of_accepted found refused]
    · intro absent
      rw [next, b.run_concat]
      exact marks_step_of_not_taken (no_node.1 absent)
  · intro distinct
    have ordered : Ordered kept.roots := (tally_run lines).ordered
    have same := run_dropRepeated_eq_keep c nesting (distinct.apart ordered)
    show b.build lines revision = _
    simp only [build, same, kept, b]

/-- The second `x` of a class is left out; the `x` after the class has other siblings and stays. -/
theorem build_drops_repeated_in_class :
    let lines := ["class A \x7b", "  let x = 1", "  let x = 2", "\x7d", "let x = 3"]
    let o := Builder.build ⟨.standard .matchStart, .braceDepth, .dropRepeated⟩ lines 0
    DistinctSiblings o.roots ∧ (∀ n ∈ nodes o.roots, n.line ≠ 2) ∧ ¬ ∀ n ∈ nodes o.roots, n.line ≠ 4 := by
  intro lines o
  obtain ⟨distinct, dropped, -⟩ := build_drops_repeated (.standard .matchStart) .braceDepth lines 0
  have second : Classifier.classify (.standard .matchStart) "  let x = 2" =
      some ⟨.variableDecl, "x", some 2⟩ := by decide +kernel
  have third : Classifier.classify (.standard .matchStart) "let x = 3" =
      some ⟨.variableDecl, "x", some 0⟩ := by decide +kernel
  refine ⟨distinct, (dropped 2 _ _ rfl second).1.2 (by decide +kernel), ?_⟩
  rw [(dropped 4 _ _ rfl third).1]
  decide +kernel

end Builder

end CodeOutline
