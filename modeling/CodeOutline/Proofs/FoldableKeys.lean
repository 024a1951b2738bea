import CodeOutline.Proofs.Folding

/-!
# Proofs.FoldableKeys — remembered keys, and declarations that come to hold something later

Four messages turn a node. A click on the chevron, and the two that fold and open the selected row, look first
whether the node can be folded; the one that names a key does not. So a key is remembered that is of no use
as long as its node holds nothing, and that takes effect when a later edit gives the node its first child: the
node starts the other way round (`leaf_key_takes_effect`).

Everything else is as it should be. `LeafToggles` runs carry the keys of the leaves that were named since the
outline was last made. Apart from these, every remembered key is that of a node in the outline that can be
folded (`LeafToggles.foldableBut`), by one induction over the cases of `Refold`; so a node that could not be
folded before an outline is made, and was not among those leaves, starts as the settings have it.
-/

namespace CodeOutline

set_option autoImplicit false

namespace Session

open Forest

/-- The keys of leaves that were toggled by name since the outline was last made, after one more message. -/
def leafTogglesAfter (s : Session) (m : Message) (leaves : List NodeKey) : List NodeKey :=
  if (Command.ofOption (s.update m).2).refreshesOutline then []
  else
    match m with
    | .toggle key => if (s.outline.find? key).any (!·.isCollapsible) then key :: leaves else leaves
    | _ => leaves

/-- The sessions that messages lead to, with the keys of the leaves that were toggled by name since the
outline was last made. -/
inductive LeafToggles : Session → List NodeKey → Prop where
  | new (config : Config) : LeafToggles (new config) []
  | withDocument (config : Config) (d : Document) : LeafToggles (withDocument config d) []
  | update {s : Session} {leaves : List NodeKey} (before : LeafToggles s leaves) (m : Message) :
      LeafToggles (s.update m).1 (s.leafTogglesAfter m leaves)

theorem LeafToggles.reachable {s : Session} {leaves : List NodeKey} (run : LeafToggles s leaves) :
    s.Reachable := by
  induction run with
  | new config => exact .new config
  | withDocument config d => exact .withDocument config d
  | update _ m ih => exact ih.update m

/-- These runs are all the runs: whatever the messages were, they left some such leaves. -/
theorem reachable_iff_exists_leafToggles {s : Session} : s.Reachable ↔ ∃ leaves, LeafToggles s leaves := by
  constructor
  · intro reach
    induction reach with
    | new config => exact ⟨[], .new config⟩
    | withDocument config d => exact ⟨[], .withDocument config d⟩
    | update _ m ih =>
        obtain ⟨leaves, run⟩ := ih
        exact ⟨_, run.update m⟩
  · rintro ⟨leaves, run⟩
    exact run.reachable

/-- Every remembered key is that of a node in the outline that can be folded, or one of some others. -/
def FoldableBut (s : Session) (others : List NodeKey) : Prop :=
  ∀ k ∈ s.panel.toggled, k ∈ others ∨ ∃ n ∈ nodes s.outline.roots, n.isCollapsible = true ∧ n.key = k

theorem foldableBut_rebuild (s : Session) (others : List NodeKey) : s.rebuild.FoldableBut others :=
  fun _ remembered => .inr (s.foldable_of_mem_toggled_rebuild remembered)

/-! ## One message -/

section Step

variable {s : Session} {m : Message} {leaves : List NodeKey}

/-- A key that names a node is noted, unless the node it leads to can be folded. -/
theorem noted_or_foldable {n : Node} (member : n ∈ nodes s.outline.roots) :
    (s.outline.find? n.key).any (!·.isCollapsible) = true ∨
      ∃ n' ∈ nodes s.outline.roots, n'.isCollapsible = true ∧ n'.key = n.key := by
  have some_node : (s.outline.find? n.key).isSome := by
    rw [Outline.find?, find?_eq_find?_nodes, List.find?_isSome]
    exact ⟨n, member, by simp⟩
  obtain ⟨found, eq⟩ := Option.isSome_iff_exists.1 some_node
  rw [eq]
  by_cases foldable : found.isCollapsible = true
  · right
    rw [Outline.find?, find?_eq_find?_nodes] at eq
    exact ⟨found, List.mem_of_find?_eq_some eq, foldable, by simpa using List.find?_some eq⟩
  · left
    simpa using foldable

theorem Refold.foldableBut {t : Session} (refold : Refold s m t) (before : s.FoldableBut leaves)
    (kept : (Command.ofOption (s.update m).2).refreshesOutline = false) :
    t.FoldableBut (s.leafTogglesAfter m leaves) := by
  have grows : ∀ k ∈ leaves, k ∈ s.leafTogglesAfter m leaves := by
    intro k noted
    simp only [leafTogglesAfter, kept, Bool.false_eq_true, if_false]
    split
    · split
      · exact List.mem_cons_of_mem _ noted
      · exact noted
    · exact noted
  cases refold with
  | kept _ outline toggled =>
      intro k remembered
      rw [toggled] at remembered
      rw [outline]
      exact (before k remembered).imp_left (grows k)
  | rebuilt t => exact t.foldableBut_rebuild _
  | turned _ outline n member sort others =>
      intro k remembered
      rw [outline]
      by_cases own : k = n.key
      · subst own
        rcases sort with foldable | rfl
        · exact .inr ⟨n, member, foldable, rfl⟩
        · rcases noted_or_foldable member with noted | foldable
          · left
            simp [leafTogglesAfter, kept, noted]
          · exact .inr foldable
      · exact (before k ((others k own).1 remembered)).imp_left (grows k)

/-- The one command that comes with a new outline is the one that asks to show it. -/
theorem Turn.answer_eq {r : Session × Option Command} (turn : Turn s r)
    (refreshes : (Command.ofOption r.2).refreshesOutline = true) : r.2 = some .refreshOutline := by
  cases turn with
  | refreshed t => rfl
  | idle | redrawn | revealed | missed | delayed => cases refreshes

/-- A message that comes with a new outline made it of some session in step with its settings, whose panel
remembers no more than this one does. -/
theorem exists_rebuild_of_answer (synced : s.Synced) (answer : (s.update m).2 = some .refreshOutline) :
    ∃ base : Session, (s.update m).1 = base.rebuild ∧ base.Synced ∧
      ∀ k ∈ base.panel.toggled, k ∈ s.panel.toggled := by
  rcases (s.answer_refreshOutline_iff m).1 answer with rebuilds | ⟨d, rfl⟩
  · obtain ⟨base, eq, toggled, keeps⟩ := rebuilds.update_eq
    refine ⟨base, congrArg Prod.fst eq, keeps synced, ?_⟩
    rw [toggled]
    exact fun _ remembered => remembered
  · refine ⟨{ s with document := d, caret := none, panel := s.panel.reset }, rfl, ?_, ?_⟩
    · exact ⟨synced.builder, synced.collapse⟩
    · intro k remembered
      exact absurd remembered (KeySet.not_mem_empty k)

theorem FoldableBut.update (before : s.FoldableBut leaves) (synced : s.Synced) (m : Message) :
    (s.update m).1.FoldableBut (s.leafTogglesAfter m leaves) := by
  cases refreshes : (Command.ofOption (s.update m).2).refreshesOutline with
  | false => exact (s.update_refold m).foldableBut before refreshes
  | true =>
      obtain ⟨base, made, -, -⟩ :=
        exists_rebuild_of_answer synced ((s.update_turn m).answer_eq refreshes)
      rw [made]
      exact base.foldableBut_rebuild _

end Step

/-! ## Any number of messages -/

theorem LeafToggles.foldableBut {s : Session} {leaves : List NodeKey} (run : LeafToggles s leaves) :
    s.FoldableBut leaves := by
  induction run with
  | new config => exact nofun
  | withDocument config d => exact foldableBut_rebuild _ _
  | update before m ih => exact ih.update before.reachable.synced m

/-- **A panel remembers the keys of nodes that can be folded,** and of the leaves that were toggled by name
since the outline was last made; every session that messages lead to has such leaves, perhaps none. When an
outline is made again, a node that can be folded now and could not be before starts as the settings have it,
unless it was one of those leaves. -/
theorem LeafToggles.toggled_foldable (s : Session) :
    (s.Reachable ↔ ∃ leaves, LeafToggles s leaves) ∧
    ∀ leaves, LeafToggles s leaves →
      (∀ k ∈ s.panel.toggled, k ∉ leaves →
        ∃ n ∈ nodes s.outline.roots, n.isCollapsible = true ∧ n.key = k) ∧
      ∀ m, (s.update m).2 = some .refreshOutline →
        let t := (s.update m).1
        ∀ n ∈ nodes t.outline.roots, n.isCollapsible = true → n.key ∉ leaves →
          (∀ old ∈ nodes s.outline.roots, old.key = n.key → old.isCollapsible = false) →
          t.panel.isCollapsed n = t.config.collapseByDefault := by
  refine ⟨reachable_iff_exists_leafToggles, fun leaves run => ?_⟩
  have known : ∀ k ∈ s.panel.toggled, k ∉ leaves →
      ∃ n ∈ nodes s.outline.roots, n.isCollapsible = true ∧ n.key = k := fun k remembered other =>
    (run.foldableBut k remembered).resolve_left other
  refine ⟨known, ?_⟩
  intro m answer t n member foldable other leaf_before
  obtain ⟨base, made, synced, fewer⟩ := exists_rebuild_of_answer run.reachable.synced answer
  have forgotten : n.key ∉ base.panel.toggled := by
    intro remembered
    obtain ⟨old, present, folds, key⟩ := known n.key (fewer _ remembered) other
    rw [leaf_before old present key] at folds
    cases folds
  have made : t = base.rebuild := made
  clear_value t
  subst made
  rw [base.isCollapsed_rebuild member, base.panel.isCollapsed_of_not_mem foldable forgotten]
  exact synced.collapse

/-- A class that was opened by name stays known, and another that comes to hold its first attribute starts
folded. -/
theorem toggled_foldable_of_first_attribute :
    let start := withDocument { debounceMs := 0 } { text := "class A \x7b\nx = 1\n\x7d\nclass B \x7b\n\x7d" }
    let s := (start.update (.toggle ⟨0, "A"⟩)).1
    let m : Message := .edit (.insert 28 "y = 2\n")
    let t := (s.update m).1
    let b : Node := ⟨.classDecl, "B", 3, some 0, [.leaf .attributeDecl "y" 4 (some 0)]⟩
    LeafToggles s [] ∧ ⟨0, "A"⟩ ∈ s.panel.toggled ∧ b ∈ nodes t.outline.roots ∧
      t.panel.isCollapsed b = true := by
  intro start s m t b
  have run : LeafToggles s (start.leafTogglesAfter (.toggle ⟨0, "A"⟩) []) :=
    (LeafToggles.withDocument _ _).update _
  obtain ⟨none_named, remembered, answer, member, leaf_before, default⟩ :
      start.leafTogglesAfter (.toggle ⟨0, "A"⟩) [] = [] ∧ ⟨0, "A"⟩ ∈ s.panel.toggled ∧
        (Command.ofOption (s.update m).2).refreshesOutline = true ∧ b ∈ nodes t.outline.roots ∧
        (∀ old ∈ nodes s.outline.roots, old.key = b.key → old.isCollapsible = false) ∧
        t.config.collapseByDefault = true := by
    decide +kernel
  rw [none_named] at run
  refine ⟨run, remembered, member, ?_⟩
  clear_value s
  have refreshed : (s.update m).2 = some .refreshOutline := (s.update_turn m).answer_eq answer
  have starts : t.panel.isCollapsed b = t.config.collapseByDefault :=
    ((LeafToggles.toggled_foldable s).2 [] run).2 m refreshed b member rfl (by simp) leaf_before
  rw [starts, default]

/-- **A key that is named need not be that of a node that can be folded, and takes effect later.** A class
without attributes is toggled by name. Its key is remembered, and when an edit gives the class its first
attribute it starts open, though the settings have it folded. -/
theorem leaf_key_takes_effect :
    let start := withDocument { debounceMs := 0 } { text := "class A \x7b\n\x7d" }
    let s := (start.update (.toggle ⟨0, "A"⟩)).1
    let t := (s.update (.edit (.insert 10 "x = 1\n"))).1
    let a : Node := ⟨.classDecl, "A", 0, some 0, [.leaf .attributeDecl "x" 1 (some 0)]⟩
    (¬ ∀ s : Session, s.Reachable → ∀ k ∈ s.panel.toggled,
        ∃ n ∈ nodes s.outline.roots, n.isCollapsible = true ∧ n.key = k) ∧
      s.outline.roots = [.leaf .classDecl "A" 0 (some 0)] ∧ t.outline.roots = [a] ∧
      a.isCollapsible = true ∧ t.config.collapseByDefault = true ∧ t.panel.isCollapsed a = false := by
  intro start s t a
  obtain ⟨remembered, no_node, rest⟩ : ⟨0, "A"⟩ ∈ s.panel.toggled ∧
      (¬ ∃ n ∈ nodes s.outline.roots, n.isCollapsible = true ∧ n.key = ⟨0, "A"⟩) ∧
      s.outline.roots = [.leaf .classDecl "A" 0 (some 0)] ∧ t.outline.roots = [a] ∧
      a.isCollapsible = true ∧ t.config.collapseByDefault = true ∧ t.panel.isCollapsed a = false := by
    decide +kernel
  have reach : s.Reachable := (Reachable.withDocument { debounceMs := 0 } _).update (.toggle ⟨0, "A"⟩)
  exact ⟨fun all => no_node (all s reach ⟨0, "A"⟩ remembered), rest⟩

end Session

end CodeOutline
