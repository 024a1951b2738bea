import CodeOutline.Tree

/-!
# Panel.KeySet — finite sets of node keys

They are kept as lists in strictly increasing order: by line, then by name in the order of code points.

The order is part of the type, so two sets with the same members are equal (`ext_mem`), and a set is
listed the same way whatever was done to reach it.
-/

namespace CodeOutline

/-- One key comes before another: by line, then by name. -/
def NodeKey.Before (a b : NodeKey) : Prop :=
  a.line < b.line ∨ (a.line = b.line ∧ a.name < b.name)

instance (a b : NodeKey) : Decidable (a.Before b) :=
  inferInstanceAs (Decidable (_ ∨ _))

namespace NodeKey

theorem not_before_self (a : NodeKey) : ¬ a.Before a := by
  rintro (line | ⟨-, name⟩)
  · exact Nat.lt_irrefl _ line
  · exact String.lt_irrefl _ name

theorem Before.trans {a b c : NodeKey} (h : a.Before b) (k : b.Before c) : a.Before c := by
  rcases h with h | ⟨h, h'⟩ <;> rcases k with k | ⟨k, k'⟩
  · exact .inl (Nat.lt_trans h k)
  · exact .inl (k ▸ h)
  · exact .inl (h ▸ k)
  · exact .inr ⟨h.trans k, String.lt_trans h' k'⟩

theorem before_of_not {a b : NodeKey} (ne : a ≠ b) (h : ¬ a.Before b) : b.Before a := by
  rcases Nat.lt_trichotomy a.line b.line with l | l | l
  · exact absurd (.inl l) h
  · refine .inr ⟨l.symm, ?_⟩
    have le : b.name ≤ a.name := fun lt => h (.inr ⟨l, lt⟩)
    refine Decidable.byContradiction fun nlt => ne ?_
    have same : a.name = b.name := String.le_antisymm nlt le
    cases a; cases b; simp_all
  · exact .inl l

end NodeKey

/-- A finite set of node keys. -/
structure KeySet where
  keys : List NodeKey
  sorted : keys.Pairwise NodeKey.Before

namespace KeySet

def empty : KeySet := ⟨[], .nil⟩

instance : Membership NodeKey KeySet where
  mem s k := k ∈ s.keys

instance (k : NodeKey) (s : KeySet) : Decidable (k ∈ s) :=
  inferInstanceAs (Decidable (k ∈ s.keys))

/-- Put a key in its place in an ordered list, unless it is there. -/
def place (k : NodeKey) : List NodeKey → List NodeKey
  | [] => [k]
  | x :: xs => if k = x then x :: xs else if k.Before x then k :: x :: xs else x :: place k xs

theorem mem_place {k x : NodeKey} {xs : List NodeKey} : x ∈ place k xs ↔ x = k ∨ x ∈ xs := by
  induction xs with
  | nil => simp [place]
  | cons y ys ih =>
    unfold place
    split
    · next h => subst h; simp
    · split
      · simp
      · simp only [List.mem_cons, ih]; constructor <;> rintro (h | h | h) <;> simp_all

theorem sorted_place (k : NodeKey) {xs : List NodeKey} (h : xs.Pairwise NodeKey.Before) :
    (place k xs).Pairwise NodeKey.Before := by
  induction xs with
  | nil => simp [place]
  | cons y ys ih =>
    rw [List.pairwise_cons] at h
    unfold place
    split
    · exact List.pairwise_cons.2 h
    · next ne =>
      split
      · next lt =>
        refine List.pairwise_cons.2 ⟨fun z hz => ?_, List.pairwise_cons.2 h⟩
        rcases List.mem_cons.1 hz with rfl | hz
        · exact lt
        · exact lt.trans (h.1 z hz)
      · next nlt =>
        refine List.pairwise_cons.2 ⟨fun z hz => ?_, ih h.2⟩
        rcases mem_place.1 hz with rfl | hz
        · exact NodeKey.before_of_not ne nlt
        · exact h.1 z hz

def insert (s : KeySet) (k : NodeKey) : KeySet :=
  ⟨place k s.keys, sorted_place k s.sorted⟩

def filter (s : KeySet) (p : NodeKey → Bool) : KeySet :=
  ⟨s.keys.filter p, s.sorted.filter p⟩

def erase (s : KeySet) (k : NodeKey) : KeySet :=
  s.filter (· != k)

theorem mem_def {s : KeySet} {k : NodeKey} : k ∈ s ↔ k ∈ s.keys := Iff.rfl

@[simp] theorem not_mem_empty (k : NodeKey) : k ∉ empty := by
  simp [mem_def, empty]

@[simp] theorem mem_insert {s : KeySet} {k x : NodeKey} : x ∈ s.insert k ↔ x = k ∨ x ∈ s := mem_place

@[simp] theorem mem_filter {s : KeySet} {p : NodeKey → Bool} {x : NodeKey} :
    x ∈ s.filter p ↔ x ∈ s ∧ p x = true := by
  simp [mem_def, filter]

@[simp] theorem mem_erase {s : KeySet} {k x : NodeKey} : x ∈ s.erase k ↔ x ∈ s ∧ x ≠ k := by
  simp [erase]

/-- Two ordered lists with the same members are the same list. -/
theorem eq_of_mem_iff {xs ys : List NodeKey} (hx : xs.Pairwise NodeKey.Before)
    (hy : ys.Pairwise NodeKey.Before) (h : ∀ k, k ∈ xs ↔ k ∈ ys) : xs = ys := by
  induction xs generalizing ys with
  | nil =>
    cases ys with
    | nil => rfl
    | cons y ys => exact absurd ((h y).2 (by simp)) (by simp)
  | cons x xs ih =>
    cases ys with
    | nil => exact absurd ((h x).1 (by simp)) (by simp)
    | cons y ys =>
      rw [List.pairwise_cons] at hx hy
      have same : x = y := by
        rcases List.mem_cons.1 ((h x).1 (by simp)) with e | hxy
        · exact e
        · rcases List.mem_cons.1 ((h y).2 (by simp)) with e | hyx
          · exact e.symm
          · exact absurd ((hx.1 y hyx).trans (hy.1 x hxy)) x.not_before_self
      subst same
      refine congrArg (x :: ·) (ih hx.2 hy.2 fun k => ?_)
      have hk := h k
      simp only [List.mem_cons] at hk
      constructor
      · intro m
        rcases hk.1 (.inr m) with rfl | m'
        · exact absurd (hx.1 k m) k.not_before_self
        · exact m'
      · intro m
        rcases hk.2 (.inr m) with rfl | m'
        · exact absurd (hy.1 k m) k.not_before_self
        · exact m'

/-- Sets with the same members are equal. -/
theorem ext_mem {s t : KeySet} (h : ∀ k, k ∈ s ↔ k ∈ t) : s = t := by
  have same : s.keys = t.keys := eq_of_mem_iff s.sorted t.sorted h
  cases s; cases t; simp_all

instance : DecidableEq KeySet := fun s t =>
  if h : s.keys = t.keys then isTrue (by cases s; cases t; simp_all)
  else isFalse fun e => h (congrArg keys e)

end KeySet

end CodeOutline
