import Mathlib.Data.List.Forall2
import Mathlib.Data.List.Perm.Basic
import CodeOutline.Config.Storage
import CodeOutline.Proofs.SettingsLines

/-!
# Proofs.SettingsText — written settings read back

Some fields as they are written, among names that are no fields and in any order, are lines of the same sorts
(`Mixed`). Their text gives the fields that are there and the defaults of the rest (`Mixed.ofYaml_eq`). The one
thing that stands in the way is a name of more than 1024 characters, for then the text breaks off
(`Mixed.ofYaml_refused`). No field has such a name, so what is saved can always be read back (`ofYaml_render`).
-/

namespace CodeOutline

set_option autoImplicit false

open CodeOutline.Yaml

namespace Config

/-- A name that is no field, with a value: the name is made of lowercase letters and `_` and starts with a
letter, and the value is a word. -/
structure Unknown (e : String × String) : Prop where
  letter : e.1.toList.head?.any Char.isLower = true
  name : ∀ ch ∈ e.1.toList, ch.isLower = true ∨ ch = '_'
  other : e.1 ∉ fieldNames
  word : IsWord e.2.toList

instance (e : String × String) : Decidable (Unknown e) :=
  decidable_of_iff (e.1.toList.head?.any Char.isLower = true ∧
      e.1.toList.all (fun ch => ch.isLower || ch == '_') = true ∧ e.1 ∉ fieldNames ∧ IsWord e.2.toList)
    ⟨fun ⟨letter, name, other, word⟩ => ⟨letter, by simpa using name, other, word⟩,
      fun unknown => ⟨unknown.letter, by simpa using unknown.name, unknown.other, unknown.word⟩⟩

def unknownLine (e : String × String) : Line := ⟨e.1, false, e.2⟩

theorem wellFormed_unknownLine {e : String × String} (unknown : Unknown e) : (unknownLine e).WellFormed := by
  refine ⟨⟨?_, fun ch member => ?_⟩, unknown.word⟩
  · intro (empty : e.1.toList = [])
    have letter := unknown.letter
    simp [empty] at letter
  · rcases unknown.name ch member with lower | rfl
    · exact isWordChar_of_isLower lower
    · decide

/-- Fields by their lines, each at most once, and other names. -/
theorem fieldsOnce_append {c : Config} {fields others : List Line} (part : fields.Sublist c.lines)
    (unknown : ∀ l ∈ others, l.name ∉ fieldNames) : FieldsOnce (fields ++ others) := by
  have distinct : (fields.map Line.name).Nodup := by
    have all : fieldNames.Nodup := by decide
    rw [← c.map_name_lines] at all
    exact all.sublist (part.map Line.name)
  refine List.pairwise_append.2 ⟨?_, ?_, ?_⟩
  · have apart : fields.Pairwise (·.name ≠ ·.name) := List.pairwise_map.1 distinct
    refine apart.imp ?_
    intro a b ne _
    exact ne
  · exact List.pairwise_of_forall_mem_list fun a member b _ field => absurd field (unknown a member)
  · intro a field b other _ same
    exact unknown b other (same ▸ name_mem_of_mem_lines (part.subset field))

/-- The order of the lines does not matter for it. -/
theorem FieldsOnce.perm {ls ls' : List Line} (once : FieldsOnce ls) (order : ls'.Perm ls) : FieldsOnce ls' := by
  refine (order.pairwise_iff ?_).2 once
  intro a b apart field same
  exact apart (same ▸ field) same.symm

/-- Entries in another order are the lines in another order. -/
theorem exists_perm_lines {entries : List (String × String)} {ls : List Line}
    (order : entries.Perm (ls.map Line.entry)) : ∃ ls' : List Line, ls'.Perm ls ∧ entries = ls'.map Line.entry := by
  have same : List.Forall₂ (fun e l => e = Line.entry l) (ls.map Line.entry) ls := by
    rw [List.forall₂_map_left_iff]
    exact List.forall₂_same.2 fun _ _ => rfl
  obtain ⟨ls', spelled, order'⟩ := List.perm_comp_forall₂ order same
  exact ⟨ls', order', by rwa [← List.forall₂_map_right_iff, List.forall₂_eq_eq_eq] at spelled⟩

theorem toList_join_renderEntry (ls : List Line) :
    (String.join ((ls.map Line.entry).map renderEntry)).toList = ls.flatMap Line.chars := by
  simp [List.flatMap_map, Line.toList_renderEntry]

/-- What is written can be read. -/
theorem ofYaml_render (c : Config) : ofYaml c.render = .ok c := by
  have written : c.render.toList = c.lines.flatMap Line.chars := by
    rw [render, entries_eq_map_lines, toList_join_renderEntry]
  have once : FieldsOnce (c.lines ++ []) := fieldsOnce_append (.refl c.lines) nofun
  rw [List.append_nil] at once
  rw [ofYaml_of_lines (fun _ => wellFormed_of_mem_lines) (fun _ => length_name_of_mem_lines) (fun _ => .inl) once
    written, map_name_lines]
  rfl

/-- What saving writes is the text of the settings. -/
theorem text_of_saveTo {disk : Storage.Disk} {path text : String} {c : Config}
    (saved : Storage.saveTo disk path c = .ok text) : text = c.render := by
  unfold Storage.saveTo at saved
  simp only at saved
  split at saved
  · cases saved
  · split at saved
    · cases saved
    · exact (Except.ok.inj saved).symm

/-- Lines of some fields among names that are no fields, in any order. -/
structure Mixed (c : Config) (fields : List Line) (others : List (String × String)) (ls : List Line) : Prop where
  part : fields.Sublist c.lines
  unknown : ∀ e ∈ others, Unknown e
  order : ls.Perm (fields ++ others.map unknownLine)

/-- Some fields as they are written, among names that are no fields, in any order, by their lines. -/
theorem exists_mixed {c : Config} {chosen others entries : List (String × String)}
    (part : chosen.Sublist c.entries) (unknown : ∀ e ∈ others, Unknown e)
    (order : entries.Perm (chosen ++ others)) :
    ∃ fields ls, Mixed c fields others ls ∧ chosen = fields.map Line.entry ∧ entries = ls.map Line.entry := by
  rw [entries_eq_map_lines] at part
  obtain ⟨fields, inside, chosen_eq⟩ := List.sublist_map_iff.1 part
  have others_eq : others = (others.map unknownLine).map Line.entry := by
    simp [unknownLine, Line.entry, Function.comp_def]
  rw [chosen_eq, others_eq, ← List.map_append] at order
  obtain ⟨ls, shuffled, entries_eq⟩ := exists_perm_lines order
  exact ⟨fields, ls, ⟨inside, unknown, shuffled⟩, chosen_eq, entries_eq⟩

namespace Mixed

variable {c : Config} {fields ls : List Line} {others : List (String × String)}

theorem cases (mixed : Mixed c fields others ls) {l : Line} (member : l ∈ ls) :
    l ∈ fields ∨ ∃ e ∈ others, unknownLine e = l :=
  (List.mem_append.1 (mixed.order.subset member)).imp_right List.mem_map.1

theorem mem_of_unknown (mixed : Mixed c fields others ls) {e : String × String} (other : e ∈ others) :
    unknownLine e ∈ ls :=
  mixed.order.symm.subset (List.mem_append_right _ (List.mem_map_of_mem other))

theorem wellFormed (mixed : Mixed c fields others ls) : ∀ l ∈ ls, l.WellFormed := by
  intro l member
  obtain field | ⟨e, other, rfl⟩ := mixed.cases member
  · exact wellFormed_of_mem_lines (mixed.part.subset field)
  · exact wellFormed_unknownLine (mixed.unknown e other)

theorem known (mixed : Mixed c fields others ls) : ∀ l ∈ ls, l ∈ c.lines ∨ l.name ∉ fieldNames := by
  intro l member
  obtain field | ⟨e, other, rfl⟩ := mixed.cases member
  · exact .inl (mixed.part.subset field)
  · exact .inr (mixed.unknown e other).other

theorem short (mixed : Mixed c fields others ls) (fits : ∀ e ∈ others, e.1.length ≤ 1024) :
    ∀ l ∈ ls, l.name.length ≤ 1024 := by
  intro l member
  obtain field | ⟨e, other, rfl⟩ := mixed.cases member
  · exact length_name_of_mem_lines (mixed.part.subset field)
  · exact fits e other

theorem fieldsOnce (mixed : Mixed c fields others ls) : FieldsOnce ls := by
  refine (fieldsOnce_append mixed.part fun l member => ?_).perm mixed.order
  obtain ⟨e, other, rfl⟩ := List.mem_map.1 member
  exact (mixed.unknown e other).other

/-- The names of the fields among the lines are those of the fields. -/
theorem name_mem_iff (mixed : Mixed c fields others ls) {name : String} (field : name ∈ fieldNames) :
    name ∈ ls.map Line.name ↔ name ∈ fields.map Line.name := by
  rw [(mixed.order.map Line.name).mem_iff, List.map_append, List.mem_append, or_iff_left]
  intro other
  simp only [List.map_map, List.mem_map] at other
  obtain ⟨e, member, rfl⟩ := other
  exact (mixed.unknown e member).other field

/-- The text of such lines gives the fields among them, if no name is too long to be a key. -/
theorem ofYaml_eq (mixed : Mixed c fields others ls) (fits : ∀ e ∈ others, e.1.length ≤ 1024) :
    ofYaml (String.join ((ls.map Line.entry).map renderEntry)) = .ok (c.keepOnly (fields.map Line.name)) := by
  rw [ofYaml_of_lines mixed.wellFormed (mixed.short fits) mixed.known mixed.fieldsOnce (toList_join_renderEntry ls),
    c.keepOnly_congr fun name field => mixed.name_mem_iff field]

/-- With a name that is too long the text cannot be read. -/
theorem ofYaml_refused (mixed : Mixed c fields others ls) (long : ∃ e ∈ others, 1024 < e.1.length) :
    ∃ fault, ofYaml (String.join ((ls.map Line.entry).map renderEntry)) = .error fault := by
  obtain ⟨e, other, long⟩ := long
  have past : ∃ l ∈ ls, 1024 < l.name.length := ⟨unknownLine e, mixed.mem_of_unknown other, long⟩
  exact ofYaml_of_broken (items_of_long_lines mixed.wellFormed past (toList_join_renderEntry ls))

end Mixed

/-- **Written settings can be read back, in any order and any part.** Take some of the fields as they are
written, and among them names that are no fields, in any order and any of those as often as one likes. The text
gives the settings of the fields that are there and the defaults of the rest, unless a name is longer than 1024
characters; then it cannot be read. So the text of all settings gives them back, wherever it was saved. -/
theorem ofYaml_shuffled (c : Config) (chosen others entries : List (String × String))
    (part : chosen.Sublist c.entries) (unknown : ∀ e ∈ others, Unknown e)
    (order : entries.Perm (chosen ++ others)) :
    ((∀ e ∈ others, e.1.length ≤ 1024) →
      ofYaml (String.join (entries.map renderEntry)) = .ok (c.keepOnly (chosen.map (·.1)))) ∧
    ((∃ e ∈ others, 1024 < e.1.length) →
      ∃ fault, ofYaml (String.join (entries.map renderEntry)) = .error fault) ∧
    ofYaml c.render = .ok c ∧
    ∀ disk path text, Storage.saveTo disk path c = .ok text → ofYaml text = .ok c := by
  obtain ⟨fields, ls, mixed, rfl, rfl⟩ := exists_mixed part unknown order
  have names : (fields.map Line.entry).map (·.1) = fields.map Line.name := by
    rw [List.map_map]
    rfl
  refine ⟨fun fits => ?_, mixed.ofYaml_refused, c.ofYaml_render, ?_⟩
  · rw [names]
    exact mixed.ofYaml_eq fits
  · intro disk path text saved
    rw [text_of_saveTo saved]
    exact c.ofYaml_render

/-- Two of the fields in another order than they are saved in, with a name between them that is no field and
comes twice; and all of them, saved where nothing stands in the way. -/
theorem ofYaml_shuffled_of_two_fields :
    let c : Config := { nesting := .indentation, column := .fixed 18446744073709551615, debounceMs := 0 }
    let chosen := [("nesting", "indentation"), ("column", "!fixed 18446744073709551615")]
    let others := [("tab_size", "0x04"), ("tab_size", "null")]
    let entries := [("tab_size", "null"), ("column", "!fixed 18446744073709551615"), ("tab_size", "0x04"),
      ("nesting", "indentation")]
    (chosen.Sublist c.entries ∧ (∀ e ∈ others, Unknown e) ∧ entries.Perm (chosen ++ others) ∧
      ∀ e ∈ others, e.1.length ≤ 1024) ∧
    ofYaml (String.join (entries.map renderEntry)) =
      .ok { nesting := .indentation, column := .fixed 18446744073709551615 } ∧
    ∃ text, Storage.saveTo (fun _ => .absent) "home/config.yaml" c = .ok text ∧ ofYaml text = .ok c := by
  intro c chosen others entries
  have part : chosen.Sublist c.entries := by decide +kernel
  have unknown : ∀ e ∈ others, Unknown e := by decide +kernel
  have order : entries.Perm (chosen ++ others) := by decide +kernel
  have fits : ∀ e ∈ others, e.1.length ≤ 1024 := by decide +kernel
  have saved : Storage.saveTo (fun _ => .absent) "home/config.yaml" c = .ok c.render := by
    simp [Storage.saveTo, Storage.canMakeDir]
  obtain ⟨given, -, -, whole⟩ := ofYaml_shuffled c chosen others entries part unknown order
  exact ⟨⟨part, unknown, order, fits⟩, given fits, c.render, saved, whole _ _ _ saved⟩

/-- A name of 1025 letters is too long, though it is made as names are and nothing else stands in the text. -/
theorem name_past_the_limit :
    let e := (String.ofList (List.replicate 1025 'a'), "x")
    Unknown e ∧ ofYaml (String.join ([e].map renderEntry)) ≠ .ok (({} : Config).keepOnly []) := by
  intro e
  have letters : e.1.toList = List.replicate 1025 'a' := String.toList_ofList
  have long : 1024 < e.1.length := by
    rw [← String.length_toList, letters, List.length_replicate]
    decide
  have unknown : Unknown e := by
    refine ⟨?_, ?_, ?_, by decide⟩
    · rw [letters, List.head?_replicate]
      rfl
    · intro ch member
      rw [letters, List.mem_replicate] at member
      rw [member.2]
      decide
    · have names : ∀ name ∈ fieldNames, name.length ≤ 1024 := by decide
      exact fun field => Nat.not_lt.2 (names e.1 field) long
  have mixed : Mixed {} [] [e] [unknownLine e] :=
    ⟨List.nil_sublist _, by simpa using unknown, .refl _⟩
  obtain ⟨fault, refused⟩ := mixed.ofYaml_refused ⟨e, by simp, long⟩
  refine ⟨unknown, ?_⟩
  change ofYaml (String.join (([unknownLine e].map Line.entry).map renderEntry)) ≠ _
  rw [refused]
  exact nofun

end Config

end CodeOutline
