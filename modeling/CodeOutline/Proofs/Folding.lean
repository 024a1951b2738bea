import CodeOutline.Proofs.Extraction
import CodeOutline.Proofs.SessionRuns

/-!
# Proofs.Folding — what is folded stays folded from one outline to the next

A panel remembers scopes by key. When an outline is made again it forgets the keys that are not there to
be folded any more, and it looks for them only below nodes that can be folded themselves. In an outline
that was built this finds them all: only scopes hold anything (`heldByScopes_build`), so each node above
another can be folded. Forgetting the other keys therefore changes nothing for any node of the new outline
(`isCollapsed_rebuild`), whatever the panel remembered.

The other half is about whole runs: a key that is remembered is the key of a node in the outline shown
(`Known`). `Refold` says what a message can do to outline and remembered keys together, and each of its
cases keeps `Known`. A declaration that appears with a rebuild thus brings a key that nothing is
remembered of, and starts as the settings have it.
-/

namespace CodeOutline

set_option autoImplicit false

open CodeOutline.Line

/-! ## Only scopes hold anything -/

namespace Forest

def HeldByScopes (ns : List Node) : Prop :=
  ∀ n ∈ nodes ns, n.children ≠ [] → n.kind.isScope = true

end Forest

namespace Builder

open Forest

/-- The scopes that are open are of the kinds that open one, and so is all that a node lies in. -/
structure InScopes (p : Progress) : Prop where
  opened : ∀ e ∈ p.path, e.2.kind.isScope = true
  placed : ∀ above e, (above, e) ∈ lineage Node.entry [] p.forest → ∀ a ∈ above, a.2.kind.isScope = true

variable {b : Builder} {p : Progress}

theorem InScopes.step (before : InScopes p) (line : String) : InScopes (b.step p line) := by
  constructor
  · intro e member
    rcases b.mem_path_step member with earlier | ⟨-, scope⟩
    · exact before.opened e earlier
    · exact scope
  · intro above e member
    rcases b.mem_lineage_step member with earlier | ⟨rfl, -⟩
    · exact before.placed above e earlier
    · exact before.opened

theorem inScopes_run (lines : List String) : InScopes (b.run lines) := by
  induction lines using List.reverseRecOn with
  | nil => exact ⟨nofun, nofun⟩
  | append_singleton lines line ih =>
      rw [b.run_concat]
      exact ih.step line

/-- In a built outline only scopes hold anything, however it nests. -/
theorem heldByScopes_build (b : Builder) (lines : List String) (revision : UInt64) :
    HeldByScopes (b.build lines revision).roots := by
  intro n member holds
  obtain ⟨child, inside⟩ := List.exists_mem_of_ne_nil _ holds
  obtain ⟨above, placed⟩ := exists_mem_lineage member
  have below := List.mem_map_of_mem (f := Prod.map (List.map Node.entry) Node.entry)
    (mem_lineage_child placed inside)
  rw [← lineage_entry_eq] at below
  exact (inScopes_run (b := b) lines).placed _ _ below n.entry (by simp)

end Builder

/-! ## The keys that a rebuild keeps -/

theorem Node.collapsibleKeys_eq (n : Node) :
    n.collapsibleKeys = if n.isCollapsible then n.key :: Forest.collapsibleKeys n.children else [] := by
  cases n; rfl

namespace Forest

variable {ns : List Node}

/-- A key that is found is the key of a node that can be folded. -/
theorem exists_of_mem_collapsibleKeys {k : NodeKey} (member : k ∈ collapsibleKeys ns) :
    ∃ n ∈ nodes ns, n.isCollapsible = true ∧ n.key = k := by
  induction ns using Forest.induct with
  | nil => simp [collapsibleKeys] at member
  | cons n ns below after =>
      simp only [collapsibleKeys, Node.collapsibleKeys_eq, List.mem_append] at member
      simp only [nodes_cons, List.mem_cons, List.mem_append]
      rcases member with here | later
      · split at here
        · rename_i foldable
          rcases List.mem_cons.1 here with rfl | inside
          · exact ⟨n, .inl rfl, foldable, rfl⟩
          · obtain ⟨m, member, found⟩ := below inside
            exact ⟨m, .inr (.inl member), found⟩
        · simp at here
      · obtain ⟨m, member, found⟩ := after later
        exact ⟨m, .inr (.inr member), found⟩

/-- Where only scopes hold anything, every node that can be folded is found, for what lies in a node makes it
one that can be folded. -/
theorem HeldByScopes.mem_collapsibleKeys (held : HeldByScopes ns) {n : Node} (member : n ∈ nodes ns)
    (foldable : n.isCollapsible = true) : n.key ∈ collapsibleKeys ns := by
  induction ns using Forest.induct with
  | nil => simp at member
  | cons m ns below after =>
      simp only [HeldByScopes, nodes_cons, List.mem_cons, List.mem_append] at held member
      simp only [collapsibleKeys, Node.collapsibleKeys_eq, List.mem_append]
      rcases member with rfl | inside | later
      · left
        simp [foldable]
      · have holds : m.children ≠ [] := by
          intro empty
          simp [empty] at inside
        have above : m.isCollapsible = true := by
          simp [Node.isCollapsible, held m (.inl rfl) holds, holds]
        left
        rw [if_pos above]
        exact List.mem_cons_of_mem _ (below (fun c member => held c (.inr (.inl member))) inside)
      · exact .inr (after (fun c member => held c (.inr (.inr member))) later)

end Forest

namespace Panel

variable (p : Panel)

theorem isCollapsed_of_collapsible {n : Node} (foldable : n.isCollapsible = true) :
    p.isCollapsed n = (p.collapseByDefault != decide (n.key ∈ p.toggled)) := by
  simp [isCollapsed, foldable]

/-- Nodes with one key are folded alike by panels that remember it alike and have the same default. -/
theorem isCollapsed_congr {p q : Panel} {n m : Node} (hn : n.isCollapsible = true)
    (hm : m.isCollapsible = true) (default : p.collapseByDefault = q.collapseByDefault)
    (remembered : n.key ∈ p.toggled ↔ m.key ∈ q.toggled) : p.isCollapsed n = q.isCollapsed m := by
  rw [p.isCollapsed_of_collapsible hn, q.isCollapsed_of_collapsible hm, default]
  simp only [remembered]

/-- A node whose key is not remembered is as the default has it. -/
theorem isCollapsed_of_not_mem {n : Node} (foldable : n.isCollapsible = true) (forgotten : n.key ∉ p.toggled) :
    p.isCollapsed n = p.collapseByDefault := by
  simp [p.isCollapsed_of_collapsible foldable, forgotten]

theorem toggled_clampTo (total : Nat) : (p.clampTo total).toggled = p.toggled := by
  unfold clampTo; split <;> rfl

theorem mem_toggled_retain {ns : List Node} {k : NodeKey} :
    k ∈ (p.retain ns).toggled ↔ k ∈ p.toggled ∧ k ∈ Forest.collapsibleKeys ns := by
  simp [retain]

theorem mem_toggled_toggle_of_ne {n : Node} {k : NodeKey} (other : k ≠ n.key) :
    k ∈ (p.toggle n).toggled ↔ k ∈ p.toggled := by
  unfold toggle
  split <;> simp [other]

theorem mem_toggled_setCollapsed_of_ne {n : Node} {k : NodeKey} (collapsed : Bool) (other : k ≠ n.key) :
    k ∈ (p.setCollapsed n collapsed).toggled ↔ k ∈ p.toggled := by
  unfold setCollapsed
  split <;> simp [other]

end Panel

namespace Session

open Forest

theorem heldByScopes_freshOutline (b : Builder) (document : Option Document) :
    HeldByScopes (freshOutline b document).roots := by
  cases document with
  | none => exact nofun
  | some d => exact b.heldByScopes_build (LineSource.lines d) d.revision

theorem toggled_rebuild (s : Session) :
    s.rebuild.panel.toggled = (s.panel.retain s.rebuild.outline.roots).toggled :=
  Panel.toggled_clampTo _ _

/-- **Making the outline again folds and opens nothing** of what is in the new outline. -/
theorem isCollapsed_rebuild (s : Session) {n : Node} (member : n ∈ nodes s.rebuild.outline.roots) :
    s.rebuild.panel.isCollapsed n = s.panel.isCollapsed n := by
  by_cases foldable : n.isCollapsible = true
  · have present : n.key ∈ collapsibleKeys s.rebuild.outline.roots :=
      (heldByScopes_freshOutline s.builder s.document).mem_collapsibleKeys member foldable
    refine Panel.isCollapsed_congr foldable foldable (collapseByDefault_clampTo _ _) ?_
    rw [toggled_rebuild, Panel.mem_toggled_retain]
    exact and_iff_left present
  · simp [Panel.isCollapsed, foldable]

/-! ## What a message does to the remembered keys -/

/-- The outline stays and at most the key of one of its nodes is taken up or dropped, or the outline is
made again. A node that is turned can be folded, unless the message names its key. -/
inductive Refold (s : Session) (m : Message) : Session → Prop where
  | kept (t : Session) (outline : t.outline = s.outline) (toggled : t.panel.toggled = s.panel.toggled) :
      Refold s m t
  | turned (t : Session) (outline : t.outline = s.outline) (n : Node) (member : n ∈ nodes s.outline.roots)
      (sort : n.isCollapsible = true ∨ m = .toggle n.key)
      (others : ∀ k, k ≠ n.key → (k ∈ t.panel.toggled ↔ k ∈ s.panel.toggled)) : Refold s m t
  | rebuilt (t : Session) : Refold s m t.rebuild

section Refold

variable (s : Session) {m : Message}

/-- Clamping does not touch the remembered keys. -/
theorem refold_clampPanel {panel : Panel} (toggled : panel.toggled = s.panel.toggled) :
    Refold s m { s with panel }.clampPanel :=
  .kept _ rfl ((Panel.toggled_clampTo _ _).trans toggled)

theorem refold_clampPanel_of_turned {panel : Panel} {n : Node} (member : n ∈ nodes s.outline.roots)
    (sort : n.isCollapsible = true ∨ m = .toggle n.key)
    (others : ∀ k, k ≠ n.key → (k ∈ panel.toggled ↔ k ∈ s.panel.toggled)) :
    Refold s m { s with panel }.clampPanel := by
  refine .turned _ rfl n member sort fun k other => ?_
  have same : Panel.toggled (Session.clampPanel { s with panel }).panel = panel.toggled :=
    Panel.toggled_clampTo _ _
  rw [same]
  exact others k other

theorem refold_reveal (selected : Option Nat) (p : Position) : Refold s m ((s.select selected).reveal p).1 := by
  obtain ⟨caret, same, -⟩ := (s.select selected).reveal_eq p
  rw [same]
  exact .kept _ rfl rfl

theorem refold_setSelectedCollapsed (collapsed : Bool) : Refold s m (s.setSelectedCollapsed collapsed) := by
  unfold setSelectedCollapsed
  split
  · exact .kept s rfl rfl
  · split
    · rename_i n found
      split
      · rename_i foldable
        exact s.refold_clampPanel_of_turned (s.panel.mem_nodes_of_nodeAt? found) (.inl foldable)
          fun k other => s.panel.mem_toggled_setCollapsed_of_ne collapsed other
      · exact s.refold_clampPanel rfl
    · exact s.refold_clampPanel rfl

theorem refold_toggleKey (key : NodeKey) : Refold s (.toggle key) (s.toggleKey key) := by
  unfold toggleKey
  split
  · rename_i n found
    rw [Outline.find?, find?_eq_find?_nodes] at found
    have named : n.key = key := by simpa using List.find?_some found
    exact s.refold_clampPanel_of_turned (List.mem_of_find?_eq_some found) (.inr (by rw [named]))
      fun k other => s.panel.mem_toggled_toggle_of_ne other
  · exact s.refold_clampPanel rfl

theorem refold_click (index clicks : Nat) (onChevron : Bool) :
    Refold s m (s.click index clicks onChevron).1 := by
  unfold click
  split
  · exact .kept s rfl rfl
  · rename_i n found
    split
    · rename_i chevron
      have foldable : n.isCollapsible = true := (Bool.and_eq_true_iff.1 chevron).2
      exact s.refold_clampPanel_of_turned (s.panel.mem_nodes_of_nodeAt? found) (.inl foldable)
        fun k other => Panel.mem_toggled_toggle_of_ne { s.panel with selected := some index } other
    · split
      · exact s.refold_reveal (some index) n.position
      · exact .kept _ rfl rfl

/-- All that a message does to outline and remembered keys. -/
theorem update_refold (m : Message) : Refold s m (s.update m).1 := by
  cases m with
  | activate | rebuild => exact .rebuilt _
  | edit e =>
      simp only [update]
      split
      · exact .kept s rfl rfl
      · simp only [scheduleRefresh]
        split
        · exact .rebuilt _
        · exact .kept _ rfl rfl
  | refreshDue revision =>
      simp only [update]
      split
      · exact .kept s rfl rfl
      · split
        · exact .rebuilt s
        · exact .kept s rfl rfl
  | jump p => exact s.refold_reveal s.panel.selected p
  | toggle key => exact s.refold_toggleKey key
  | selectPrevious | scroll | resize => exact s.refold_clampPanel rfl
  | selectNext =>
      show Refold s .selectNext s.selectNext
      unfold selectNext
      repeat' split
      all_goals exact .kept _ rfl rfl
  | expandSelected => exact s.refold_setSelectedCollapsed false
  | collapseSelected => exact s.refold_setSelectedCollapsed true
  | openSelected =>
      simp only [update]
      split
      · exact .kept s rfl rfl
      · exact s.refold_reveal s.panel.selected _
  | click index clicks onChevron => exact s.refold_click index clicks onChevron
  | reload config =>
      simp only [update]
      split
      · exact .kept s rfl rfl
      · exact .rebuilt _

end Refold

def Known (s : Session) : Prop := ∀ k ∈ s.panel.toggled, ∃ n ∈ nodes s.outline.roots, n.key = k

/-- Once the outline is made again, only the keys of nodes that can be folded are remembered. -/
theorem foldable_of_mem_toggled_rebuild (s : Session) {k : NodeKey}
    (remembered : k ∈ s.rebuild.panel.toggled) :
    ∃ n ∈ nodes s.rebuild.outline.roots, n.isCollapsible = true ∧ n.key = k := by
  rw [toggled_rebuild, Panel.mem_toggled_retain] at remembered
  exact exists_of_mem_collapsibleKeys remembered.2

theorem known_rebuild (s : Session) : s.rebuild.Known := by
  intro k remembered
  obtain ⟨n, member, -, key⟩ := s.foldable_of_mem_toggled_rebuild remembered
  exact ⟨n, member, key⟩

theorem Refold.known {s t : Session} {m : Message} (refold : Refold s m t) (before : s.Known) : t.Known := by
  cases refold with
  | kept _ outline toggled =>
      intro k remembered
      rw [toggled] at remembered
      rw [outline]
      exact before k remembered
  | turned _ outline n member _ others =>
      intro k remembered
      rw [outline]
      by_cases own : k = n.key
      · exact ⟨n, member, own.symm⟩
      · exact before k ((others k own).1 remembered)
  | rebuilt t => exact t.known_rebuild

theorem Reachable.known {s : Session} (reach : s.Reachable) : s.Known := by
  induction reach with
  | new config => exact nofun
  | withDocument config d => exact known_rebuild _
  | update _ m ih => exact (update_refold _ m).known ih

/-! ## Rebuilds -/

/-- A new outline is the answer to these messages and to the activation of a document, and to no other. -/
theorem answer_refreshOutline_iff (s : Session) (m : Message) :
    (s.update m).2 = some .refreshOutline ↔ s.Rebuilds m ∨ ∃ d, m = .activate d := by
  constructor
  · intro answer
    cases s.update_course m with
    | activated d sort => exact .inr ⟨d, sort⟩
    | rebuilt rebuilds => exact .inl rebuilds
    | delayed e d sort active eq =>
        rw [eq] at answer
        cases answer
    | untouched _ untouched =>
        have silent := untouched.answer
        rw [answer] at silent
        cases silent
  · rintro (rebuilds | ⟨d, rfl⟩)
    · obtain ⟨t, same, -⟩ := rebuilds.update_eq
      rw [same]
      rfl
    · rfl

/-- **Folding survives a rebuild, and nothing forgotten comes back.** The messages that make an outline are
those of `Rebuilds` and activations. A message of the first sort, under the same default, leaves each node that
could be folded before and can be folded now, told by its line and name, as it was; a node that can be folded
now and whose line and name no node had before is as the default has it. After an activation all nodes are as
the default has them. -/
theorem Reachable.folding_survives {s : Session} (reach : s.Reachable) (m : Message) :
    let t := (s.update m).1
    ((s.update m).2 = some .refreshOutline ↔ s.Rebuilds m ∨ ∃ d, m = .activate d) ∧
    (s.Rebuilds m → t.config.collapseByDefault = s.config.collapseByDefault →
      ∀ n ∈ nodes t.outline.roots, n.isCollapsible = true →
        (∀ old ∈ nodes s.outline.roots, old.isCollapsible = true → old.key = n.key →
          t.panel.isCollapsed n = s.panel.isCollapsed old) ∧
        ((∀ old ∈ nodes s.outline.roots, old.key ≠ n.key) →
          t.panel.isCollapsed n = t.config.collapseByDefault)) ∧
      (∀ d, m = .activate d → ∀ n ∈ nodes t.outline.roots, n.isCollapsible = true →
        t.panel.isCollapsed n = t.config.collapseByDefault) := by
  intro t
  refine ⟨s.answer_refreshOutline_iff m, ?_, ?_⟩
  · intro rebuilds same n member foldable
    obtain ⟨base, eq, toggled, synced⟩ := rebuilds.update_eq
    have made : t = base.rebuild := congrArg Prod.fst eq
    clear_value t
    subst made
    have base_synced : base.Synced := synced reach.synced
    have default : base.panel.collapseByDefault = s.panel.collapseByDefault := by
      rw [base_synced.collapse, reach.synced.collapse]
      exact same
    rw [base.isCollapsed_rebuild member]
    constructor
    · intro old _ foldable' key
      refine Panel.isCollapsed_congr foldable foldable' default ?_
      rw [toggled, key]
    · intro unseen
      have forgotten : n.key ∉ base.panel.toggled := by
        rw [toggled]
        intro remembered
        obtain ⟨old, known, key⟩ := reach.known _ remembered
        exact unseen old known key
      rw [base.panel.isCollapsed_of_not_mem foldable forgotten]
      exact base_synced.collapse
  · rintro d rfl n member foldable
    let base : Session := { s with document := d, caret := none, panel := s.panel.reset }
    have forgotten : n.key ∉ base.panel.toggled := KeySet.not_mem_empty _
    have default : base.panel.collapseByDefault = base.config.collapseByDefault := reach.synced.collapse
    show base.rebuild.panel.isCollapsed n = base.config.collapseByDefault
    rw [base.isCollapsed_rebuild member, base.panel.isCollapsed_of_not_mem foldable forgotten, default]

/-- A class that was opened stays open when an edit adds another class after it; the new one starts folded. -/
theorem folding_survives_of_added_class :
    let before := ((withDocument {} { text := "class A \x7b\nx = 1\n\x7d" }).update (.toggle ⟨0, "A"⟩)).1
    let s := (before.update (.edit (.insert 17 "\nclass B \x7b\ny = 2\n\x7d"))).1
    let t := (s.update (.refreshDue 1)).1
    let a : Node := ⟨.classDecl, "A", 0, some 0, [.leaf .attributeDecl "x" 1 (some 0)]⟩
    let b : Node := ⟨.classDecl, "B", 3, some 0, [.leaf .attributeDecl "y" 4 (some 0)]⟩
    s.Rebuilds (.refreshDue 1) ∧ s.outline.roots = [a] ∧ t.outline.roots = [a, b] ∧
      t.panel.isCollapsed a = false ∧ t.panel.isCollapsed b = true := by
  intro before s t a b
  have reach : s.Reachable := ((Reachable.withDocument {} _).update _).update _
  obtain ⟨active, old, new, same_default, default, opened⟩ :
      s.document = some ⟨"class A \x7b\nx = 1\n\x7d\nclass B \x7b\ny = 2\n\x7d", none, 1⟩ ∧
        s.outline.roots = [a] ∧ t.outline.roots = [a, b] ∧
        t.config.collapseByDefault = s.config.collapseByDefault ∧ t.config.collapseByDefault = true ∧
        s.panel.isCollapsed a = false := by
    decide +kernel
  have rebuilds : s.Rebuilds (.refreshDue 1) := .refreshDue _ active
  clear_value s
  have survives := (reach.folding_survives (.refreshDue 1)).2.1 rebuilds same_default
  refine ⟨rebuilds, old, new, ?_, ?_⟩
  · have member : a ∈ nodes t.outline.roots := by rw [new]; decide
    have member_old : a ∈ nodes s.outline.roots := by rw [old]; decide
    rw [← opened]
    exact (survives a member rfl).1 a member_old rfl rfl
  · have member : b ∈ nodes t.outline.roots := by rw [new]; decide
    have unseen : ∀ n ∈ nodes s.outline.roots, n.key ≠ b.key := by rw [old]; decide
    rw [← default]
    exact (survives b member rfl).2 unseen

end Session

end CodeOutline
