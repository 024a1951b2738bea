import Mathlib.Data.List.Basic
import CodeOutline.Config.Decode
import CodeOutline.Config.Render
import CodeOutline.Proofs.LineItems

/-!
# Proofs.SettingsLines — settings by their lines

The text of settings has one line for each field (`Config.lines`), and each of these lines is taken in as the
setting it was written for (`decodeEntry_of_field`): the choices by their words, numbers by their digits, and the
fixed column by its tag. A line with another name is passed over (`decodeEntry_of_unknown`). So the lines that
were taken in are known by their names alone: what is given after them is `Config.givenOnly`, and what they come
to in the end is `Config.keepOnly`, the settings of the named fields with the defaults of the rest
(`ofYaml_of_lines`).
-/

namespace CodeOutline

set_option autoImplicit false

open CodeOutline.Yaml

/-! ## Numbers -/

namespace Yaml

theorem digitValue?_of_isDigit {c : Char} (digit : c.isDigit = true) :
    digitValue? c = some (c.toNat - '0'.toNat) ∧ c.toNat - '0'.toNat < 10 := by
  simp only [Char.isDigit, Bool.and_eq_true, decide_eq_true_eq, ge_iff_le, UInt32.le_iff_toNat_le] at digit
  change 48 ≤ c.toNat ∧ c.toNat ≤ 57 at digit
  have range : '0' ≤ c ∧ c ≤ '9' := by
    simp only [Char.le_def, UInt32.le_iff_toNat_le]
    exact digit
  refine ⟨by simp only [digitValue?, range, and_self, if_true], ?_⟩
  change c.toNat - 48 < 10
  omega

/-- Decimal digits are read as the number they spell. -/
theorem naturalOf?_of_digits {s : List Char} (nonempty : s ≠ []) (digits : ∀ c ∈ s, c.isDigit = true) :
    naturalOf? 10 s = some (Nat.ofDigitChars 10 s 0) := by
  have rest_read : ∀ n, s.foldlM (fun n c => (digitValue? c).bind fun d =>
      if d < 10 then some (10 * n + d) else none) n = some (Nat.ofDigitChars 10 s n) := by
    clear nonempty
    induction s with
    | nil => exact fun n => rfl
    | cons c s ih =>
        intro n
        obtain ⟨first, later⟩ := List.forall_mem_cons.1 digits
        obtain ⟨value, small⟩ := digitValue?_of_isDigit first
        rw [List.foldlM_cons, value, Option.bind_some, if_pos small, Nat.ofDigitChars_cons]
        exact ih later _
  simp only [naturalOf?, List.isEmpty_iff, nonempty, if_false]
  exact rest_read 0

theorem isDigit_toDigits (n : Nat) : ∀ c ∈ Nat.toDigits 10 n, c.isDigit = true :=
  fun _ member => Nat.isDigit_of_mem_toDigits (by decide) (by decide) member

/-- The digits of a number that is not zero do not start with one. -/
theorem head?_toDigits_ne_zero {n : Nat} (pos : 0 < n) : (Nat.toDigits 10 n).head? ≠ some '0' := by
  induction n using Nat.strongRecOn with
  | ind n ih =>
      rw [Nat.toDigits_eq_if (by decide)]
      split
      · rename_i single
        intro zero
        have same := congrArg Char.toNat (Option.some.inj zero)
        rw [Nat.toNat_digitChar_of_lt_ten single] at same
        change 48 + n = 48 at same
        omega
      · have shorter := ih (n / 10) (by omega) (by omega)
        rw [List.head?_append_of_ne_nil _ Nat.toDigits_ne_nil]
        exact shorter

theorem hasLeadingZero_toDigits (n : Nat) : hasLeadingZero (Nat.toDigits 10 n) = false := by
  have digits := isDigit_toDigits n
  unfold hasLeadingZero
  split
  · rename_i r starts
    exact absurd (digits '-' (by simp [starts])) (by decide)
  · rename_i r starts
    exact absurd (digits '+' (by simp [starts])) (by decide)
  · by_cases pos : 0 < n
    · simp [head?_toDigits_ne_zero pos]
    · obtain rfl : n = 0 := by omega
      simp

/-- Decimal digits announce no other base. -/
theorem basedDigits_of_digits {s : List Char} (digits : ∀ c ∈ s, c.isDigit = true) : basedDigits s = (10, s) := by
  unfold basedDigits
  split
  · exact absurd (digits 'x' (by simp)) (by decide)
  · exact absurd (digits 'o' (by simp)) (by decide)
  · exact absurd (digits 'b' (by simp)) (by decide)
  · rfl

/-- A number is read back from its digits. -/
theorem natural?_toDigits (n : Nat) : natural? (Nat.toDigits 10 n) = some n := by
  have digits := isDigit_toDigits n
  rw [natural?]
  · simp [hasLeadingZero_toDigits, basedDigits_of_digits digits, naturalOf?_of_digits Nat.toDigits_ne_nil digits,
      Nat.ofDigitChars_ten_toDigits]
  · intro r starts
    exact absurd (digits '+' (by simp [starts])) (by decide)

/-- Digits are a word. -/
theorem isWord_toDigits (n : Nat) : IsWord (Nat.toDigits 10 n) := by
  refine ⟨Nat.toDigits_ne_nil, fun c member => ?_⟩
  have digit := isDigit_toDigits n c member
  simp [isWordChar, Char.isAlphanum, digit]

end Yaml

/-! ## Lines of settings -/

namespace Yaml.Line

def entry (l : Line) : String × String := (l.name, if l.tagged then "!fixed " ++ l.word else l.word)

theorem toList_renderEntry (l : Line) : (Config.renderEntry l.entry).toList = l.chars := by
  cases tagged : l.tagged <;> simp [Config.renderEntry, entry, chars, value, tagged]

end Yaml.Line

namespace Config

def fieldNames : List String := ["nesting", "duplicates", "column", "debounce_ms", "collapse_by_default"]

/-- The settings of some fields, and the defaults of the rest. -/
def keepOnly (c : Config) (names : List String) : Config :=
  let standard : Config := {}
  { nesting := if "nesting" ∈ names then c.nesting else standard.nesting
    duplicates := if "duplicates" ∈ names then c.duplicates else standard.duplicates
    column := if "column" ∈ names then c.column else standard.column
    debounceMs := if "debounce_ms" ∈ names then c.debounceMs else standard.debounceMs
    collapseByDefault :=
      if "collapse_by_default" ∈ names then c.collapseByDefault else standard.collapseByDefault }

def givenOnly (c : Config) (names : List String) : Given :=
  { nesting := if "nesting" ∈ names then some c.nesting else none
    duplicates := if "duplicates" ∈ names then some c.duplicates else none
    column := if "column" ∈ names then some c.column else none
    debounceMs := if "debounce_ms" ∈ names then some c.debounceMs else none
    collapseByDefault := if "collapse_by_default" ∈ names then some c.collapseByDefault else none }

def columnLine (c : Config) : Line :=
  match c.column with
  | .fixed n => ⟨"column", true, toString n.toNat⟩
  | p => ⟨"column", false, p.word⟩

theorem name_columnLine (c : Config) : c.columnLine.name = "column" := by
  unfold columnLine
  split <;> rfl

def lines (c : Config) : List Line :=
  [⟨"nesting", false, c.nesting.word⟩, ⟨"duplicates", false, c.duplicates.word⟩, c.columnLine,
   ⟨"debounce_ms", false, toString c.debounceMs.toNat⟩,
   ⟨"collapse_by_default", false, if c.collapseByDefault then "true" else "false"⟩]

theorem entries_eq_map_lines (c : Config) : c.entries = c.lines.map Line.entry := by
  obtain ⟨nesting, duplicates, column, debounce, collapse⟩ := c
  cases column <;> rfl

theorem isWord_toString (n : Nat) : IsWord (toString n).toList := by
  rw [Nat.toString_eq_repr, Nat.toList_repr]
  exact isWord_toDigits n

/-- The lines of the fields have the names of the fields. -/
theorem map_name_lines (c : Config) : c.lines.map Line.name = fieldNames := by
  simp [lines, name_columnLine, fieldNames]

theorem name_mem_of_mem_lines {c : Config} {l : Line} (member : l ∈ c.lines) : l.name ∈ fieldNames := by
  rw [← c.map_name_lines]
  exact List.mem_map_of_mem member

theorem length_name_of_mem_lines {c : Config} {l : Line} (member : l ∈ c.lines) : l.name.length ≤ 1024 := by
  have names : ∀ name ∈ fieldNames, name.length ≤ 1024 := by decide
  exact names l.name (name_mem_of_mem_lines member)

/-- The names and values of the fields are words. -/
theorem wellFormed_of_mem_lines {c : Config} {l : Line} (member : l ∈ c.lines) : l.WellFormed := by
  have names : ∀ name ∈ fieldNames, IsWord name.toList := by decide
  refine ⟨names l.name (name_mem_of_mem_lines member), ?_⟩
  simp only [lines, List.mem_cons, List.not_mem_nil, or_false] at member
  rcases member with rfl | rfl | rfl | rfl | rfl
  · cases c.nesting <;> decide
  · cases c.duplicates <;> decide
  · cases column : c.column with
    | fixed n => simpa only [columnLine, column] using isWord_toString n.toNat
    | _ => simp only [columnLine, column]; decide
  · exact isWord_toString _
  · cases c.collapseByDefault <;> decide

/-- Only which fields are named counts, not how often or in which order. -/
theorem keepOnly_congr (c : Config) {names names' : List String}
    (same : ∀ name ∈ fieldNames, name ∈ names ↔ name ∈ names') : c.keepOnly names = c.keepOnly names' := by
  simp only [fieldNames, List.forall_mem_cons] at same
  simp [keepOnly, same]

theorem complete_givenOnly (c : Config) (names : List String) :
    (c.givenOnly names).complete = c.keepOnly names := by
  simp only [Given.complete, givenOnly, keepOnly, Config.mk.injEq]
  refine ⟨?_, ?_, ?_, ?_, ?_⟩ <;> split <;> rfl

/-! ## Taking in lines -/

section Fields

variable {α : Type} {a : α}

/-- A field that was not given yet is taken in with what its value stands for. -/
theorem takeField_eq {name : String} {e : Event} (decode : Option String → Event → Except Fault α)
    {old : Option α} (fresh : old = none) (read : decode (some name) e = .ok a) (set : α → Given)
    (rest : List Item) :
    takeField name name old decode set (.node e :: rest) = .ok (set a, rest) := by
  simp [takeField, fresh, decodeItem, read, Except.map]

/-- A word stands for its choice. -/
theorem decodeWordChoice_word (known : List String) {ofWord? : String → Option α} {word : String}
    (stands : ofWord? word = some a) (field : Option String) :
    decodeWordChoice known ofWord? field (.scalar {} .plain word) = .ok a := by
  simp [decodeWordChoice, decodeChoice, stands]

theorem decodeWord_toString (field : Option String) (wanted : String) (given : Properties) (n : UInt64) :
    decodeWord field wanted (.scalar given .plain (toString n.toNat)) = .ok n := by
  simp [decodeWord, readsAs, natural?_toDigits, n.toNat_lt_size]

theorem decodeBool_word (field : Option String) (b : Bool) :
    decodeBool field (.scalar {} .plain (if b then "true" else "false")) = .ok b := by
  cases b <;> rfl

/-- The line of a column policy stands for the policy. -/
theorem decodeColumn_line (c : Config) (field : Option String) :
    decodeColumn field c.columnLine.event = .ok c.column := by
  cases column : c.column with
  | fixed n =>
      have stands : decodeWord field "usize" (.scalar { tag := some ⟨"!fixed", true⟩ } .plain (toString n.toNat)) =
          .ok n := decodeWord_toString field "usize" _ n
      simp only [columnLine, column]
      change (decodeWord field "usize" (.scalar { tag := some ⟨"!fixed", true⟩ } .plain (toString n.toNat))).map
        ColumnPolicy.fixed = _
      rw [stands]
      rfl
  | _ =>
      simp only [columnLine, column]
      rfl

end Fields

/-- The line of a field that was not given yet gives it. -/
theorem decodeEntry_of_field {c : Config} {l : Line} (member : l ∈ c.lines) {seen : List String}
    (fresh : l.name ∉ seen) (rest : List Item) :
    decodeEntry (c.givenOnly seen) l.name l.name (.node l.event :: rest) =
      .ok (c.givenOnly (l.name :: seen), rest) := by
  simp only [lines, List.mem_cons, List.not_mem_nil, or_false] at member
  rcases member with rfl | rfl | rfl | rfl | rfl
  · have absent : (c.givenOnly seen).nesting = none := by simp [givenOnly, fresh]
    have read := decodeWordChoice_word (Nesting.all.map (·.word)) c.nesting.ofWord?_word (some "nesting")
    refine (takeField_eq _ absent read _ rest).trans ?_
    simp [givenOnly]
  · have absent : (c.givenOnly seen).duplicates = none := by simp [givenOnly, fresh]
    have read := decodeWordChoice_word (Duplicates.all.map (·.word)) c.duplicates.ofWord?_word (some "duplicates")
    refine (takeField_eq _ absent read _ rest).trans ?_
    simp [givenOnly]
  · rw [name_columnLine] at fresh ⊢
    have absent : (c.givenOnly seen).column = none := by simp [givenOnly, fresh]
    refine (takeField_eq _ absent (c.decodeColumn_line (some "column")) _ rest).trans ?_
    simp [givenOnly]
  · have absent : (c.givenOnly seen).debounceMs = none := by simp [givenOnly, fresh]
    have read := decodeWord_toString (some "debounce_ms") "u64" {} c.debounceMs
    refine (takeField_eq (fun field => decodeWord field "u64") absent read _ rest).trans ?_
    simp [givenOnly]
  · have absent : (c.givenOnly seen).collapseByDefault = none := by simp [givenOnly, fresh]
    have read := decodeBool_word (some "collapse_by_default") c.collapseByDefault
    refine (takeField_eq _ absent read _ rest).trans ?_
    simp [givenOnly]

/-- A name that is no field is passed over with its value. -/
theorem decodeEntry_of_unknown {c : Config} {l : Line} (unknown : l.name ∉ fieldNames) (seen : List String)
    (rest : List Item) :
    decodeEntry (c.givenOnly seen) l.name l.name (.node l.event :: rest) =
      .ok (c.givenOnly (l.name :: seen), rest) := by
  simp only [fieldNames, List.mem_cons, List.not_mem_nil, or_false, not_or] at unknown
  have same : c.givenOnly (l.name :: seen) = c.givenOnly seen := by
    simp [givenOnly, Ne.symm unknown.1, Ne.symm unknown.2.1, Ne.symm unknown.2.2.1, Ne.symm unknown.2.2.2.1,
      Ne.symm unknown.2.2.2.2]
  have skipped : Item.skipNode (.node l.event :: rest) = some rest := rfl
  rw [same, decodeEntry]
  · simp [skipped]
  all_goals simp [unknown]

/-- No field has two of the lines. -/
def FieldsOnce (ls : List Line) : Prop :=
  ls.Pairwise fun a b => a.name ∈ fieldNames → a.name ≠ b.name

/-- Lines of fields and of other names give the fields among them. What was taken in so far is known by the
names seen, and a field that is still to come is none of them. -/
theorem decodeEntries_lines {c : Config} {ls : List Line} (known : ∀ l ∈ ls, l ∈ c.lines ∨ l.name ∉ fieldNames)
    (once : FieldsOnce ls) {seen : List String} (fresh : ∀ l ∈ ls, l.name ∈ fieldNames → l.name ∉ seen)
    {n : Nat} (enough : ls.length < n) :
    decodeEntries n (c.givenOnly seen) ((ls.flatMap Line.events).map .node ++ [.node .mappingEnd]) =
      .ok (c.givenOnly ((ls.map Line.name).reverse ++ seen)) := by
  induction ls generalizing seen n with
  | nil =>
      obtain ⟨n, rfl⟩ := Nat.exists_eq_add_of_lt enough
      rfl
  | cons l ls ih =>
      obtain ⟨m, rfl⟩ : ∃ m, n = m + 1 := ⟨n - 1, by omega⟩
      obtain ⟨here, later⟩ := List.forall_mem_cons.1 known
      obtain ⟨apart, once'⟩ := List.pairwise_cons.1 once
      obtain ⟨first, others⟩ := List.forall_mem_cons.1 fresh
      have taken : ∀ rest, decodeEntry (c.givenOnly seen) l.name l.name (.node l.event :: rest) =
          .ok (c.givenOnly (l.name :: seen), rest) := by
        intro rest
        by_cases field : l.name ∈ fieldNames
        · exact decodeEntry_of_field (here.resolve_right (not_not_intro field)) (first field) rest
        · exact decodeEntry_of_unknown field seen rest
      have fresh' : ∀ l' ∈ ls, l'.name ∈ fieldNames → l'.name ∉ l.name :: seen := by
        intro l' member field
        rw [List.mem_cons, not_or]
        refine ⟨fun same => ?_, others l' member field⟩
        exact apart l' member (same ▸ field) same.symm
      rw [List.length_cons] at enough
      simp only [List.flatMap_cons, Line.events, List.cons_append, List.nil_append, List.map_cons, decodeEntries,
        taken]
      rw [ih later once' fresh' (by omega)]
      simp

/-- A text of lines gives the fields among them, if no name is too long to be a key. -/
theorem ofYaml_of_lines {c : Config} {ls : List Line} (wellFormed : ∀ l ∈ ls, l.WellFormed)
    (short : ∀ l ∈ ls, l.name.length ≤ 1024) (known : ∀ l ∈ ls, l ∈ c.lines ∨ l.name ∉ fieldNames)
    (once : FieldsOnce ls) {text : String} (written : text.toList = ls.flatMap Line.chars) :
    ofYaml text = .ok (c.keepOnly (ls.map Line.name)) := by
  cases ls with
  | nil =>
      rw [ofYaml, items_of_no_line written]
      rfl
  | cons l ls =>
      let entries : List Item := ((l :: ls).flatMap Line.events).map .node ++ [.node .mappingEnd]
      have enough : (l :: ls).length < entries.length + 1 := by
        rw [List.length_append, List.length_map, Line.length_flatMap_events]
        omega
      have none_seen : ∀ l' ∈ l :: ls, l'.name ∈ fieldNames → l'.name ∉ [] := fun _ _ _ => List.not_mem_nil
      have decoded : decodeEntries (entries.length + 1) {} entries =
          .ok (c.givenOnly (((l :: ls).map Line.name).reverse ++ [])) :=
        decodeEntries_lines known once none_seen enough
      have settings : ofItems (.node (.mappingStart {}) :: entries) =
          .ok (c.keepOnly ((l :: ls).map Line.name)) := by
        rw [ofItems, decoded, List.append_nil]
        change Except.ok (c.givenOnly _).complete = _
        rw [complete_givenOnly, c.keepOnly_congr fun name _ => List.mem_reverse]
      simp only [ofYaml, items_of_lines wellFormed short written]
      rw [settings]
      rfl

/-- A text that breaks off gives nothing. -/
theorem ofYaml_of_broken {text : String} (broken : (items text).2 = false) :
    ∃ fault, ofYaml text = .error fault := by
  obtain ⟨is, whole, read⟩ : ∃ is whole, items text = (is, whole) := ⟨_, _, rfl⟩
  obtain rfl : whole = false := by simpa [read] using broken
  simp only [ofYaml, read]
  cases ofItems is with
  | ok c => exact ⟨.malformed, rfl⟩
  | error fault => exact ⟨fault, rfl⟩

end Config

end CodeOutline
