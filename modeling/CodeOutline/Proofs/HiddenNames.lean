import CodeOutline.Proofs.DeclarationShape
import CodeOutline.Proofs.Segments

/-!
# Proofs.HiddenNames — text that is only in literals and comments declares nothing

A line hides its names (`NamesHidden`) when every character that a name could start with lies in a literal or a
comment. The classifier asks only where a declaration starts, and that is not the same place for every rule. A
rule that looks for a keyword starts with its first letter, so that a hidden line hides the declaration. Members
and attributes start with the indentation or with the line, where there is always code: asking there helps
nothing. But up to their name such a line holds blanks, modifiers and perhaps a `*`, none of which opens a
literal or a comment (`covered_bland`), so the name itself would stand in code. `Rule.Exposes` says both at once.
-/

namespace CodeOutline.Line

set_option autoImplicit false

open CodeOutline.Text

/-- Every character of a line that a name could start with lies in a literal or a comment. -/
def NamesHidden (line : String) : Prop :=
  ∀ before c after, line.toList = before ++ c :: after → isNameStart c = true →
    inLiteral line (byteSize before) = true

/-- What the rule finds comes with a character that a name could start with, and if that character is hidden, so
is the place where the declaration starts. -/
def Rule.Exposes (r : Rule) : Prop :=
  ∀ (line : String) (m : Occurrence), r.find line = some m →
    ∃ before c after, line.toList = before ++ c :: after ∧ isNameStart c = true ∧
      (inLiteral line (byteSize before) = true → inLiteral line m.start = true)

theorem Rule.Exposes.findInCode_eq_none {r : Rule} (exposes : r.Exposes) {line : String} (hidden : NamesHidden line) :
    r.findInCode line = none := by
  apply Option.eq_none_iff_forall_ne_some.2
  intro m found
  obtain ⟨matched, in_code⟩ := Option.filter_eq_some_iff.1 found
  obtain ⟨before, c, after, cut, start, hides⟩ := exposes line m matched
  rw [hides (hidden before c after cut start)] at in_code
  cases in_code

/-! ## Rules that look for a keyword -/

def StartsName (s : List Char) : Prop := ∃ c after, s = c :: after ∧ isNameStart c = true

section Keywords

variable {α : Type} {s : List Char}

theorem startsName_of_afterAny {words : List String} (named : ∀ w ∈ words, w.toList.head?.map isNameStart = some true)
    {next : List Char → Option α} {r : String × α} (found : afterAny words next s = some r) : StartsName s := by
  obtain ⟨w, a⟩ := r
  obtain ⟨known, rest, rfl, -⟩ := afterAny_reads found
  obtain ⟨c, first, start⟩ := Option.map_eq_some_iff.1 (named w known)
  obtain ⟨t, spelled⟩ := List.head?_eq_some_iff.1 first
  exact ⟨c, t ++ rest, by rw [spelled, List.cons_append], start⟩

theorem startsName_of_keywordName {words : List String}
    (named : ∀ w ∈ words, w.toList.head?.map isNameStart = some true) {r : List Char × List Char}
    (found : keywordName words s = some r) : StartsName s := by
  obtain ⟨_, keyword, -⟩ := Option.bind_eq_some_iff.1 found
  exact startsName_of_afterAny named keyword

theorem startsName_of_enumHere {name : List Char} (found : enumHere s = some name) : StartsName s := by
  unfold enumHere at found
  split at found
  · rename_i keyword
    exact startsName_of_keywordName (by decide) keyword
  · cases found

theorem exposes_of_leftmost {kind : Kind} {find : String → Option Occurrence} {here : List Char → Option α}
    (starts : ∀ s a, here s = some a → StartsName s)
    (place : ∀ line m, find line = some m →
      ∃ before a, leftmost here true line.toList = some (before, a) ∧ m.start = byteSize before) :
    Rule.Exposes ⟨kind, find⟩ := by
  intro line m found
  obtain ⟨before, a, leftmost_eq, start_eq⟩ := place line m found
  obtain ⟨rest, cut, matched, -, -⟩ := leftmost_reads leftmost_eq
  obtain ⟨c, after, rfl, start⟩ := starts rest a matched
  exact ⟨before, c, after, cut, start, by rw [start_eq]; exact id⟩

theorem exposes_occurrence {kind : Kind} {here : List Char → Option (List Char)}
    (starts : ∀ s name, here s = some name → StartsName s) : Rule.Exposes ⟨kind, occurrence here⟩ := by
  refine exposes_of_leftmost starts fun line m found => ?_
  obtain ⟨⟨before, name⟩, place, rfl⟩ := Option.map_eq_some_iff.1 found
  exact ⟨before, name, place, rfl⟩

theorem exposes_variable : Rule.Exposes ⟨.variableDecl, findVariable⟩ := by
  have starts : ∀ s r, variableHere s = some r → StartsName s := fun s r found =>
    startsName_of_keywordName (by decide) found
  refine exposes_of_leftmost starts fun line m found => ?_
  simp only [findVariable] at found
  split at found
  · rename_i before name rest place
    split at found
    · cases found
    · obtain rfl := Option.some.inj found
      exact ⟨before, (name, rest), place, rfl⟩
  · cases found

end Keywords

/-! ## Members and attributes -/

def Bland (s : List Char) : Prop := ∀ c ∈ s, isQuote c = false ∧ c ≠ '/'

instance (s : List Char) : Decidable (Bland s) :=
  decidable_of_iff (s.all (fun c => !isQuote c && c != '/') = true) (by simp [Bland])

section Bland

variable {s t : List Char}

theorem Bland.append (left : Bland s) (right : Bland t) : Bland (s ++ t) := by
  intro c member
  rcases List.mem_append.1 member with member | member
  · exact left c member
  · exact right c member

theorem Blank.bland (blank : Blank s) : Bland s :=
  fun c member => ⟨isQuote_of_isBlank (blank c member), ne_of_isBlank (blank c member) (by decide)⟩

theorem Modifiers.bland {words : List String} (plain : ∀ w ∈ words, Bland w.toList) (modified : Modifiers words s) :
    Bland s := by
  induction modified with
  | none => exact nofun
  | more _ known spaced ih => exact ih.append ((plain _ known).append spaced.1.bland)

theorem MaybeStar.bland (star : MaybeStar s) : Bland s := by
  rcases star with rfl | ⟨right, rfl, blank⟩
  · exact nofun
  · intro c member
    rcases List.mem_cons.1 member with rfl | member
    · decide
    · exact blank.bland c member

theorem Bland.not_opens {c : Char} (bland : Bland (c :: s)) (t : List Char) : ¬ Opens (c :: t) := by
  obtain ⟨no_quote, no_slash⟩ := bland c List.mem_cons_self
  intro opens
  cases opens with
  | literal sort => simp [no_quote] at sort
  | comment | lineComment => exact no_slash rfl

/-- What opens nothing leaves code behind it. -/
theorem covered_bland (bland : Bland s) (t : List Char) : covered .code (byteSize s) (s ++ t) = false := by
  induction s with
  | nil => simp [byteSize, covered_zero]
  | cons c s ih =>
      rw [List.cons_append, covered_code (bland.not_opens _), byteSize, Nat.add_sub_cancel_left]
      exact ih fun d member => bland d (List.mem_cons_of_mem _ member)

end Bland

section Members

variable {s name : List Char}

/-- A text up to a name that opens neither a literal nor a comment. -/
def NameInCode (s : List Char) : Prop := ∃ front name after, s = front ++ (name ++ after) ∧ Bland front ∧ IsName name

theorem nameInCode_of_memberHere (found : memberHere s = some name) : NameInCode s := by
  obtain ⟨read, cut, read_ok⟩ := modifiers_reads memberModifiers s
  obtain ⟨⟨name', post⟩, named, -⟩ := Option.bind_eq_some_iff.1 found
  obtain ⟨modified, star, gap, cut_name, modified_ok, star_ok, -, is_name, -⟩ := memberName_reads read_ok named
  refine ⟨modified ++ star, name', gap ++ post, ?_, ?_, is_name⟩
  · rw [cut, cut_name, List.append_assoc]
  · exact (modified_ok.bland (by decide)).append star_ok.bland

theorem nameInCode_of_attributeHere (found : attributeHere s = some name) : NameInCode s := by
  obtain ⟨read, cut, read_ok⟩ := modifiers_reads attributeModifiers s
  obtain ⟨⟨name', post⟩, named, -⟩ := Option.bind_eq_some_iff.1 found
  obtain ⟨modified, mark, gap, cut_name, modified_ok, -, -, is_name, -⟩ := attributeName_reads read_ok named
  refine ⟨modified, name', mark ++ (gap ++ post), ?_, modified_ok.bland (by decide), is_name⟩
  rw [cut, cut_name, List.append_assoc]

theorem exposes_indented {kind : Kind} {here : List Char → Option (List Char)}
    (in_code : ∀ s name, here s = some name → NameInCode s)
    {find : String → Option Occurrence} {start : String → Nat}
    (find_eq : ∀ line, find line =
      (here (skipBlanks line.toList)).map fun name => ⟨String.ofList name, start line⟩) :
    Rule.Exposes ⟨kind, find⟩ := by
  intro line m found
  obtain ⟨name, matched, -⟩ := Option.map_eq_some_iff.1 ((find_eq line).symm.trans found)
  obtain ⟨margin, cut, blank⟩ := skipBlanks_reads line.toList
  obtain ⟨front, name', after, body_eq, bland, c, rest, rfl, name_start, -⟩ := in_code _ _ matched
  have line_eq : line.toList = (margin ++ front) ++ c :: (rest ++ after) := by
    rw [cut, body_eq, List.append_assoc]
    rfl
  have exposed : inLiteral line (byteSize (margin ++ front)) = false := by
    rw [inLiteral, line_eq]
    exact covered_bland (blank.bland.append bland) _
  exact ⟨margin ++ front, c, rest ++ after, line_eq, name_start, by rw [exposed]; exact nofun⟩

end Members

/-! ## Hidden lines -/

theorem Rule.Exposes.or {kind : Kind} {first second : String → Option Occurrence}
    (left : Rule.Exposes ⟨kind, first⟩) (right : Rule.Exposes ⟨kind, second⟩) :
    Rule.Exposes ⟨kind, fun line => (first line).or (second line)⟩ := by
  intro line m found
  rcases Option.or_eq_some_iff.1 found with found | ⟨-, found⟩
  · exact left line m found
  · exact right line m found

theorem exposes_standard : ∀ r ∈ standardRules, r.Exposes := by
  have named : ∀ {words : List String}, (∀ w ∈ words, w.toList.head?.map isNameStart = some true) →
      ∀ s name, (keywordName words s).map (·.1) = some name → StartsName s := by
    intro words known s name found
    obtain ⟨_, keyword, -⟩ := Option.map_eq_some_iff.1 found
    exact startsName_of_keywordName known keyword
  have free : ∀ s name, functionHere s = some name → StartsName s := by
    intro s name found
    obtain ⟨_, keyword, -⟩ := Option.bind_eq_some_iff.1 found
    exact startsName_of_afterAny (by decide) keyword
  have event : ∀ s name, eventHere s = some name → StartsName s := by
    intro s name found
    obtain ⟨_, keyword, -⟩ := Option.bind_eq_some_iff.1 found
    exact startsName_of_afterAny (by decide) keyword
  intro r member
  simp only [standardRules, List.mem_cons, List.not_mem_nil, or_false] at member
  rcases member with rfl | rfl | rfl | rfl | rfl | rfl | rfl
  · exact exposes_occurrence (named (by decide))
  · exact (exposes_occurrence free).or (exposes_indented (fun _ _ => nameInCode_of_memberHere) findMember_eq)
  · exact exposes_variable
  · exact exposes_indented (fun _ _ => nameInCode_of_attributeHere) findAttribute_eq
  · exact exposes_occurrence fun _ _ => startsName_of_enumHere
  · exact exposes_occurrence (named (by decide))
  · exact exposes_occurrence event

/-- What opens a literal or a comment starts no name. -/
theorem Opens.isNameStart_head {c : Char} {s : List Char} (opens : Opens (c :: s)) : isNameStart c = false := by
  cases opens with
  | literal sort =>
      simp only [isQuote, Bool.or_eq_true, beq_iff_eq] at sort
      rcases sort with (rfl | rfl) | rfl <;> decide
  | comment | lineComment => decide

/-- A `//` is never ended. -/
theorem unclosed_lineComment (s : List Char) : Unclosed ('/' :: '/' :: s) := by
  refine ⟨.lineComment s, fun front mark rest closes same => ?_⟩
  cases closes with
  | literal sort =>
      obtain ⟨rfl, -⟩ := List.cons.inj same
      exact ne_slash_of_isQuote sort rfl
  | comment => simp at same

/-- A character that is not blank is not among the blanks that a text starts with. -/
theorem exists_past_blanks {margin s before after : List Char} {c : Char} (blank : Blank margin)
    (ink : isBlank c = false) (cut : margin ++ s = before ++ c :: after) :
    ∃ front, before = margin ++ front ∧ s = front ++ c :: after := by
  induction margin generalizing before with
  | nil => exact ⟨before, rfl, cut⟩
  | cons d margin ih =>
      cases before with
      | nil =>
          obtain ⟨rfl, -⟩ := List.cons.inj cut
          rw [blank.head] at ink
          cases ink
      | cons e before =>
          obtain ⟨rfl, later⟩ := List.cons.inj cut
          obtain ⟨front, rfl, rest⟩ := ih blank.tail later
          exact ⟨front, rfl, rest⟩

/-- A line that starts with a literal or a comment that nothing ends hides its names. -/
theorem namesHidden_of_unclosed {line : String} (unclosed : Unclosed (skipBlanks line.toList)) : NamesHidden line := by
  intro before c after cut start
  obtain ⟨margin, line_eq, blank⟩ := skipBlanks_reads line.toList
  have ink : isBlank c = false := by
    rw [Bool.eq_false_iff]
    intro blank_c
    rw [isNameStart_of_isBlank blank_c] at start
    cases start
  obtain ⟨front, rfl, rest⟩ := exists_past_blanks blank ink (line_eq.symm.trans cut)
  have further : 0 < byteSize front := by
    cases front with
    | nil =>
        have opens := unclosed.opens
        rw [rest] at opens
        rw [opens.isNameStart_head] at start
        cases start
    | cons d front => exact Nat.lt_of_lt_of_le d.utf8Size_pos (Nat.le_add_right _ _)
  rw [inLiteral, line_eq, byteSize_append, covered_blank_append blank, covered_unclosed unclosed]
  exact decide_eq_true further

/-- **Text that is only in literals and comments declares nothing.** By the standard rules, whatever the columns, a
line declares nothing if every character of it that a name could start with lies in a literal or a comment. Such is
every line that starts, after blanks, with `//` or with a literal or block comment that nothing on the line ends. -/
theorem hidden_names_declare_nothing (policy : ColumnPolicy) :
    (∀ line, NamesHidden line → (Classifier.standard policy).classify line = none) ∧
      ∀ line : String, ['/', '/'] <+: skipBlanks line.toList ∨ Unclosed (skipBlanks line.toList) →
        NamesHidden line := by
  constructor
  · intro line hidden
    have silent : (standardRules.findSome? fun r => (r.findInCode line).map (r.kind, ·)) = none := by
      apply List.findSome?_eq_none_iff.2
      intro r member
      rw [(exposes_standard r member).findInCode_eq_none hidden, Option.map_none]
    simp only [Classifier.classify, Classifier.standard, silent]
  · rintro line (⟨s, comment⟩ | unclosed)
    · apply namesHidden_of_unclosed
      rw [← comment]
      exact unclosed_lineComment s
    · exact namesHidden_of_unclosed unclosed

end CodeOutline.Line
