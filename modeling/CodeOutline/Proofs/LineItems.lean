import CodeOutline.Proofs.LineTokens
import CodeOutline.Yaml.Item

/-!
# Proofs.LineItems — lines `name: value` as the items of a document

A mapping is read line by line: its name and its value are two scalars, and the goals are the same after them as
before (`pursueAll_line`). No anchor or alias stands in such lines, so the items are the events as they come.
A text of lines is a whole document, and the items are a mapping of names and values (`items_of_lines`); a text
that breaks off is none (`items_of_long_lines`).
-/

namespace CodeOutline.Yaml

set_option autoImplicit false

namespace Line

def given (l : Line) : Properties := if l.tagged then { tag := some ⟨"!fixed", true⟩ } else {}

def event (l : Line) : Event := .scalar l.given .plain l.word

def events (l : Line) : List Event := [.scalar {} .plain l.name, l.event]

/-- Nothing in a line has an anchor or is an alias. -/
theorem bare_of_mem_events (l : Line) {e : Event} (member : e ∈ l.events) :
    e.anchor? = none ∧ ∀ name, e ≠ .alias name := by
  obtain ⟨name, tagged, word⟩ := l
  simp only [events, List.mem_cons, List.not_mem_nil, or_false] at member
  rcases member with rfl | rfl
  · exact ⟨rfl, nofun⟩
  · cases tagged <;> exact ⟨rfl, nofun⟩

theorem length_flatMap_events (ls : List Line) : (ls.flatMap events).length = 2 * ls.length := by
  simp [List.length_flatMap, events, List.map_const', Nat.mul_comm]

/-- Every line has at least four tokens. -/
theorem four_mul_length_le (ls : List Line) : 4 * ls.length ≤ (ls.flatMap tokens).length := by
  induction ls with
  | nil => exact Nat.le_refl 0
  | cons l ls ih =>
      have four : 4 ≤ l.tokens.length := by
        simp only [tokens, List.length_cons]
        split <;> simp
      rw [List.flatMap_cons, List.length_append, List.length_cons]
      omega

end Line

/-- Four goals are pursued for a line: a key, its name, a value and what it is. -/
theorem pursueAll_line (l : Line) (n : Nat) (read : List Event) (goals : List Goal) (ts : List Token) :
    pursueAll standardHandles (n + 4) read (.keys :: goals) (l.tokens ++ ts) =
      pursueAll standardHandles n (l.events.reverse ++ read) (.keys :: goals) ts := by
  obtain ⟨name, tagged, word⟩ := l
  cases tagged <;> rfl

theorem pursueAll_lines (ls : List Line) (n : Nat) (read : List Event) (goals : List Goal) (ts : List Token) :
    pursueAll standardHandles (n + 4 * ls.length) read (.keys :: goals) (ls.flatMap Line.tokens ++ ts) =
      pursueAll standardHandles n ((ls.flatMap Line.events).reverse ++ read) (.keys :: goals) ts := by
  induction ls generalizing read with
  | nil => rfl
  | cons l ls ih =>
      have steps : n + 4 * (l :: ls).length = n + 4 * ls.length + 4 := by
        rw [List.length_cons]
        omega
      rw [steps, List.flatMap_cons, List.append_assoc, pursueAll_line, ih]
      simp

/-- The tokens of a mapping of lines are one document. -/
theorem documentEvents_of_lines (ls : List Line) :
    documentEvents (.blockMapping :: (ls.flatMap Line.tokens ++ [.blockEnd, .textEnd])) =
      (.mappingStart {} :: (ls.flatMap Line.events ++ [.mappingEnd]), true) := by
  let tokens : List Token := .blockMapping :: (ls.flatMap Line.tokens ++ [.blockEnd, .textEnd])
  have enough : 4 * ls.length ≤ tokens.length := by
    have each := Line.four_mul_length_le ls
    simp only [tokens, List.length_cons, List.length_append]
    omega
  obtain ⟨m, count⟩ : ∃ m, 8 * tokens.length + 8 = m + 1 + 4 * ls.length + 1 :=
    ⟨8 * tokens.length + 8 - 4 * ls.length - 2, by omega⟩
  have read : pursueAll standardHandles (8 * tokens.length + 8) [] [.node true false] tokens =
      (.mappingEnd :: ((ls.flatMap Line.events).reverse ++ [.mappingStart {}]), some [.textEnd]) := by
    rw [count]
    change pursueAll standardHandles (m + 1 + 4 * ls.length) [.mappingStart {}] [.keys]
      (ls.flatMap Line.tokens ++ [.blockEnd, .textEnd]) = _
    rw [pursueAll_lines]
    simp [pursueAll, pursue]
  change contentEvents standardHandles tokens = _
  rw [contentEvents, read]
  simp

/-- Where nothing has an anchor or is an alias, the items are the events. -/
theorem itemsOf_eq {events : List Event} (bare : ∀ e ∈ events, e.anchor? = none ∧ ∀ name, e ≠ .alias name) :
    itemsOf events = (events.map .node, true) := by
  have numbered : ∀ met, numberAnchors met {} events = ((events.map .inl).reverse ++ met, {}, true) := by
    induction events with
    | nil => exact fun met => rfl
    | cons e events ih =>
        intro met
        obtain ⟨⟨unanchored, named⟩, later⟩ := List.forall_mem_cons.1 bare
        rw [numberAnchors, unanchored]
        · rw [ih later]
          simp
        · exact named
  simp only [itemsOf, numbered, List.append_nil, List.reverse_reverse, List.filterMap_map]
  exact congrArg (·, true) (congrFun (List.filterMap_eq_map (f := Item.node)) events)

/-- The items of lines whose names are short enough to be keys: a mapping of names and values. -/
theorem items_of_lines {l : Line} {ls : List Line} (wellFormed : ∀ l' ∈ l :: ls, l'.WellFormed)
    (short : ∀ l' ∈ l :: ls, l'.name.length ≤ 1024) {text : String}
    (written : text.toList = (l :: ls).flatMap Line.chars) :
    items text = (.node (.mappingStart {}) :: (((l :: ls).flatMap Line.events).map .node ++
      [.node .mappingEnd]), true) := by
  have bare : ∀ e ∈ Event.mappingStart {} :: ((l :: ls).flatMap Line.events ++ [.mappingEnd]),
      e.anchor? = none ∧ ∀ name, e ≠ .alias name := by
    intro e member
    rcases List.mem_cons.1 member with rfl | member
    · exact ⟨rfl, nofun⟩
    · rcases List.mem_append.1 member with inside | last
      · obtain ⟨l, -, inside⟩ := List.mem_flatMap.1 inside
        exact l.bare_of_mem_events inside
      · obtain rfl := List.mem_singleton.1 last
        exact ⟨rfl, nofun⟩
  simp only [items, tokens_of_lines wellFormed short written, documentEvents_of_lines, itemsOf_eq bare]
  simp

theorem items_of_no_line {text : String} (empty : text.toList = []) : items text = ([], true) := by
  simp only [items, tokens_of_no_line empty]
  rfl

/-- A text of lines that breaks off is no whole document. -/
theorem items_of_long_lines {ls : List Line} (wellFormed : ∀ l ∈ ls, l.WellFormed)
    (long : ∃ l ∈ ls, 1024 < l.name.length) {text : String} (written : text.toList = ls.flatMap Line.chars) :
    (items text).2 = false := by
  simp [items, tokens_of_long_lines wellFormed long written]

end CodeOutline.Yaml
