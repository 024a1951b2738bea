import CodeOutline.Line.Classifier
import CodeOutline.Proofs.PaddedRules
import CodeOutline.Proofs.Reading

/-!
# Proofs.DeclarationShape — the shape of a line that declares something by the standard rules

Whatever the kind, the declared name is a whole identifier of the line, with no name character right before it
or right after it (`WholeName`): no rule takes part of a name, and a modifier that turns out to be the name is
taken whole. What stands before the name and after it depends on the kind (`Shape`). All kinds but attributes
follow a keyword. A function may also be written as a member, and then like an attribute it starts with the line.
-/

namespace CodeOutline.Line

set_option autoImplicit false

open CodeOutline.Text

/-! ## Shapes -/

/-- A name that is a whole identifier between two parts of a line. -/
structure WholeName (pre name post : List Char) : Prop where
  name : IsName name
  starts : NameStarts pre
  stops : NameStops post

/-- A text that ends with a keyword and what stands between it and the name. The keyword is a word of its own. -/
def AfterKeyword (words : List String) (between : List Char → Prop) (pre : List Char) : Prop :=
  ∃ front w gap, pre = front ++ (w.toList ++ gap) ∧ Clear front ∧ w ∈ words ∧ between gap

def StarGap (s : List Char) : Prop :=
  Gap s ∨ ∃ left right, s = left ++ '*' :: right ∧ Blank left ∧ Blank right

/-- A type with blanks around it. -/
def TypeGap (s : List Char) : Prop :=
  ∃ left type right, s = left ++ (type ++ right) ∧ Gap left ∧ type ≠ [] ∧
    (∀ c ∈ type, isEventType c = true) ∧ Gap right

/-- The start of a line up to a name: blanks and modifiers, and then what `mark` says. -/
def AfterModifiersOf (words : List String) (mark : List Char → Prop) (pre : List Char) : Prop :=
  ∃ margin modified star, pre = margin ++ (modified ++ star) ∧ Blank margin ∧ Modifiers words modified ∧ mark star

def MaybeStar (s : List Char) : Prop := s = [] ∨ ∃ right, s = '*' :: right ∧ Blank right

/-- Blanks, perhaps type parameters and more blanks, and then a `(` with what `rest` says after it. -/
def Parameters (rest : List Char → Prop) (post : List Char) : Prop :=
  ∃ left group right tail, post = left ++ group ++ right ++ '(' :: tail ∧ Blank left ∧
    (group = [] ∨ TypeParameters group) ∧ Blank right ∧ rest tail

/-- The type of a result, from its `:` on. -/
def ResultType (s : List Char) : Prop :=
  ∃ type, s = ':' :: type ∧ type ≠ [] ∧ '{' ∉ type ∧ ';' ∉ type

/-- The rest of a parameter list, perhaps the type of the result, and the `{` of a body. -/
def Body (s : List Char) : Prop :=
  ∃ params left result tail, s = params ++ ')' :: (left ++ result ++ '{' :: tail) ∧ ')' ∉ params ∧ Blank left ∧
    (result = [] ∨ ResultType result)

/-- Perhaps a `?`, then `=` or `:`, and the first character of what is given: not `;`, and none that makes
`==`, `=>` or `::` of it. -/
def GivenValue (post : List Char) : Prop :=
  ∃ mark left op right next tail, post = mark ++ left ++ op :: (right ++ next :: tail) ∧
    (mark = [] ∨ mark = ['?']) ∧ Blank left ∧ Blank right ∧ isBlank next = false ∧ next ≠ ';' ∧
    ((op = '=' ∧ next ≠ '=' ∧ next ≠ '>') ∨ (op = ':' ∧ next ≠ ':'))

def Followed (marks : List Char) (post : List Char) : Prop :=
  ∃ left c tail, post = left ++ c :: tail ∧ Blank left ∧ c ∈ marks

/-- What stands before and after the name of a declaration, by its kind. -/
def Shape (kind : Kind) (pre : List Char) (name : String) (post : List Char) : Prop :=
  match kind with
  | .classDecl => AfterKeyword ["class", "namespace", "module"] Gap pre
  | .functionDecl =>
      (AfterKeyword ["function"] StarGap pre ∧ Parameters (fun _ => True) post) ∨
        (AfterModifiersOf memberModifiers MaybeStar pre ∧ name ∉ controlKeywords ∧ Parameters Body post)
  | .variableDecl =>
      AfterKeyword ["const", "let", "var"] Gap pre ∧ name ≠ "enum" ∧ ¬ ['=', '='] <+: skipBlanks post
  | .attributeDecl => AfterModifiersOf attributeModifiers (· = []) pre ∧ GivenValue post
  | .enumDecl => AfterKeyword ["enum"] Gap pre ∧ Followed ['{'] post
  | .typeDecl => AfterKeyword ["interface", "type"] Gap pre
  | .eventDecl => AfterKeyword ["event"] TypeGap pre ∧ Followed [';', '{', '='] post

/-- A text with a name in it that has the shape of a declaration. -/
def Declares (kind : Kind) (s : List Char) (name : String) : Prop :=
  ∃ pre post, s = pre ++ name.toList ++ post ∧ WholeName pre name.toList post ∧ Shape kind pre name post

theorem declares_ofList {kind : Kind} {s pre name post : List Char} (cut : s = pre ++ name ++ post)
    (whole : WholeName pre name post) (shape : Shape kind pre (String.ofList name) post) :
    Declares kind s (String.ofList name) := by
  refine ⟨pre, post, ?_, ?_, shape⟩
  · rwa [String.toList_ofList]
  · rwa [String.toList_ofList]

/-! ## Rules that look for a keyword -/

section Keywords

variable {s front rest name : List Char}

/-- A name after a keyword. What stands between the two ends in no name character. -/
theorem exists_afterKeyword {words : List String} {between : List Char → Prop}
    (apart : ∀ gap t, between gap → NameStarts (t ++ gap)) (clear : Clear front) {w : String}
    (known : w ∈ words) {gap : List Char} (gap_ok : between gap) (cut : s = w.toList ++ (gap ++ (name ++ rest)))
    (is_name : IsName name) (stops : NameStops rest) :
    ∃ pre, front ++ s = pre ++ name ++ rest ∧ AfterKeyword words between pre ∧ WholeName pre name rest := by
  refine ⟨front ++ (w.toList ++ gap), ?_, ⟨front, w, gap, rfl, clear, known, gap_ok⟩, is_name, ?_, stops⟩
  · simp only [cut, List.append_assoc]
  · rw [← List.append_assoc]
    exact apart gap _ gap_ok

theorem keywordName_reads {words : List String} (clear : Clear front)
    (found : keywordName words s = some (name, rest)) :
    ∃ pre, front ++ s = pre ++ name ++ rest ∧ AfterKeyword words Gap pre ∧ WholeName pre name rest := by
  obtain ⟨⟨w, r⟩, keyword, named⟩ := Option.bind_eq_some_iff.1 found
  obtain ⟨known, t, rfl, spaced⟩ := afterAny_reads keyword
  obtain ⟨gap, rfl, gap_ok⟩ := someBlanks_reads spaced
  obtain ⟨rfl, is_name, stops⟩ := identifier_reads named
  exact exists_afterKeyword (fun gap t ok => ok.nameStarts t) clear known gap_ok rfl is_name stops

/-- Where the keyword and the name are all there is to a kind. -/
theorem declares_of_keywordName {kind : Kind} {words : List String}
    (enough : ∀ pre name post, AfterKeyword words Gap pre → Shape kind pre name post) (clear : Clear front)
    (found : (keywordName words s).map (·.1) = some name) :
    Declares kind (front ++ s) (String.ofList name) := by
  obtain ⟨⟨name', post⟩, named, rfl⟩ := Option.map_eq_some_iff.1 found
  obtain ⟨pre, cut, after, whole⟩ := keywordName_reads clear named
  exact declares_ofList cut whole (enough pre _ post after)

theorem skipBlanks_followed {c : Char} {marks : List Char} (left : skipBlanks s = c :: rest) (known : c ∈ marks) :
    Followed marks s := by
  obtain ⟨gap, cut, blank⟩ := skipBlanks_reads s
  exact ⟨gap, c, rest, by rw [← left]; exact cut, blank, known⟩

theorem declares_of_enumHere (clear : Clear front) (found : enumHere s = some name) :
    Declares .enumDecl (front ++ s) (String.ofList name) := by
  unfold enumHere at found
  split at found
  · rename_i name' post named
    split at found
    · rename_i brace
      obtain rfl := Option.some.inj found
      obtain ⟨pre, cut, after, whole⟩ := keywordName_reads clear named
      obtain ⟨tail, left⟩ := List.head?_eq_some_iff.1 brace
      exact declares_ofList cut whole ⟨after, skipBlanks_followed left (by decide)⟩
    · cases found
  · cases found

theorem functionGap_reads (found : functionGap s = some rest) : ∃ gap, s = gap ++ rest ∧ StarGap gap := by
  unfold functionGap at found
  split at found
  · rename_i r star
    obtain ⟨left, cut, blank⟩ := skipBlanks_reads s
    obtain ⟨right, cut', blank'⟩ := skipBlanks_reads r
    obtain rfl := Option.some.inj found
    refine ⟨left ++ '*' :: right, ?_, .inr ⟨left, right, rfl, blank, blank'⟩⟩
    rw [star] at cut
    rw [cut, List.append_assoc, List.cons_append, ← cut']
  · obtain ⟨gap, rfl, gap_ok⟩ := someBlanks_reads found
    exact ⟨gap, rfl, .inl gap_ok⟩

theorem StarGap.nameStarts {gap : List Char} (ok : StarGap gap) (t : List Char) : NameStarts (t ++ gap) := by
  rcases ok with spaced | ⟨left, right, rfl, -, blank⟩
  · exact spaced.nameStarts t
  · rw [← List.append_assoc]
    exact nameStarts_star blank

/-- What follows a name up to the `(` of the parameters, and what is asked of the rest. -/
theorem parameters_of_afterTypeParameters {next : List Char → Option Unit} {inside : List Char → Prop}
    (opens : ∀ t, next t = some () → ∃ tail, t = '(' :: tail ∧ inside tail)
    (found : afterTypeParameters next s = some ()) : Parameters inside s := by
  obtain ⟨left, group, right, t, rfl, blank, typed, blank', follows⟩ := afterTypeParameters_reads found
  obtain ⟨tail, rfl, inside_ok⟩ := opens t follows
  exact ⟨left, group, right, tail, rfl, blank, typed, blank', inside_ok⟩

theorem opensParameters_reads (found : opensParameters s = some ()) : ∃ tail, s = '(' :: tail ∧ True := by
  unfold opensParameters at found
  split at found
  · exact ⟨_, rfl, trivial⟩
  · cases found

theorem declares_of_functionHere (clear : Clear front) (found : functionHere s = some name) :
    Declares .functionDecl (front ++ s) (String.ofList name) := by
  obtain ⟨⟨w, r⟩, keyword, found⟩ := Option.bind_eq_some_iff.1 found
  obtain ⟨⟨name', post⟩, named, found⟩ := Option.bind_eq_some_iff.1 found
  obtain ⟨_, parameters, same⟩ := Option.bind_eq_some_iff.1 found
  obtain rfl := Option.some.inj same
  obtain ⟨known, t, rfl, gap_read⟩ := afterAny_reads keyword
  obtain ⟨gap, rfl, gap_ok⟩ := functionGap_reads gap_read
  obtain ⟨rfl, is_name, stops⟩ := identifier_reads named
  obtain ⟨pre, cut, after, whole⟩ :=
    exists_afterKeyword (fun gap t ok => StarGap.nameStarts ok t) clear known gap_ok rfl is_name stops
  have opened := parameters_of_afterTypeParameters (fun _ => opensParameters_reads) parameters
  exact declares_ofList cut whole (.inl ⟨after, opened⟩)

theorem TypeGap.nameStarts {gap : List Char} (ok : TypeGap gap) (t : List Char) : NameStarts (t ++ gap) := by
  obtain ⟨left, type, right, rfl, -, -, -, spaced⟩ := ok
  rw [← List.append_assoc, ← List.append_assoc]
  exact spaced.nameStarts _

/-- The type of an event, and the blanks after it. -/
theorem eventType_reads (typed : (s.takeWhile isEventType).isEmpty = false)
    (spaced : someBlanks (s.dropWhile isEventType) = some rest) {left : List Char} (gap : Gap left) :
    ∃ between, left ++ s = between ++ rest ∧ TypeGap between := by
  obtain ⟨right, cut, gap'⟩ := someBlanks_reads spaced
  refine ⟨left ++ (s.takeWhile isEventType ++ right), ?_, left, s.takeWhile isEventType, right, rfl, gap, ?_,
    fun c member => List.mem_takeWhile_imp member, gap'⟩
  · rw [List.append_assoc, List.append_assoc, ← cut, List.takeWhile_append_dropWhile]
  · simpa using typed

theorem declares_of_eventHere (clear : Clear front) (found : eventHere s = some name) :
    Declares .eventDecl (front ++ s) (String.ofList name) := by
  obtain ⟨⟨w, r⟩, keyword, found⟩ := Option.bind_eq_some_iff.1 found
  obtain ⟨_, typed, found⟩ := Option.bind_eq_some_iff.1 found
  obtain ⟨r', spaced, found⟩ := Option.bind_eq_some_iff.1 found
  obtain ⟨⟨name', post⟩, named, ended⟩ := Option.bind_eq_some_iff.1 found
  obtain ⟨known, t, rfl, gap_read⟩ := afterAny_reads keyword
  obtain ⟨left, rfl, gap⟩ := someBlanks_reads gap_read
  have some_type : (r.takeWhile isEventType).isEmpty = false := by
    unfold guard at typed
    split at typed
    · rename_i holds
      simpa using holds
    · cases typed
  obtain ⟨between, between_eq, between_ok⟩ := eventType_reads some_type spaced gap
  obtain ⟨rfl, is_name, stops⟩ := identifier_reads named
  obtain ⟨pre, cut, after, whole⟩ :=
    exists_afterKeyword (fun gap t ok => TypeGap.nameStarts ok t) clear known between_ok
      (congrArg (w.toList ++ ·) between_eq) is_name stops
  obtain ⟨rfl, followed⟩ : name' = name ∧ Followed [';', '{', '='] post := by
    dsimp only at ended
    split at ended
    · rename_i end_eq
      exact ⟨Option.some.inj ended, skipBlanks_followed end_eq (by decide)⟩
    · rename_i end_eq
      exact ⟨Option.some.inj ended, skipBlanks_followed end_eq (by decide)⟩
    · rename_i end_eq
      exact ⟨Option.some.inj ended, skipBlanks_followed end_eq (by decide)⟩
    · cases ended
  exact declares_ofList cut whole ⟨after, followed⟩

end Keywords

/-! ## Members and attributes -/

section Members

variable {s margin read rest name post : List Char}

/-- The name is a modifier after all: the one kept aside, with its blanks given back to what follows. -/
theorem ReadModifiers.name_of_last {words : List String}
    (named : ∀ w ∈ words, identifier w.toList = some (w.toList, [])) {w : String}
    (read_ok : ReadModifiers words (some w) read) :
    ∃ modified gap, (∀ t, read ++ t = modified ++ w.toList ++ (gap ++ t)) ∧ Modifiers words modified ∧ Gap gap ∧
      IsName w.toList := by
  obtain ⟨known, before, gap, rfl, modified, spaced⟩ := read_ok
  refine ⟨before, gap, fun t => ?_, modified, spaced, (identifier_reads (named w known)).2.1⟩
  simp only [List.append_assoc]

theorem pastMark_reads (mark : Char) (f : List Char → List Char) (s : List Char) :
    pastMark mark f s = s ∨ ∃ r, s = mark :: r ∧ pastMark mark f s = f r := by
  cases s with
  | nil => exact .inl rfl
  | cons c s =>
      by_cases same : c = mark
      · exact .inr ⟨s, by rw [same], by simp [pastMark, same]⟩
      · exact .inl (by simp [pastMark, same])

theorem memberStar_reads (s : List Char) : ∃ star, s = star ++ pastMark '*' skipBlanks s ∧ MaybeStar star := by
  rcases pastMark_reads '*' skipBlanks s with same | ⟨r, rfl, past⟩
  · exact ⟨[], same.symm, .inl rfl⟩
  · obtain ⟨right, cut, blank⟩ := skipBlanks_reads r
    exact ⟨'*' :: right, by rw [past, List.cons_append, ← cut], .inr ⟨right, rfl, blank⟩⟩

/-- A member is named after perhaps a `*`; blanks that were read with a modifier follow the name. -/
theorem memberName_reads {last : Option String} (read_ok : ReadModifiers memberModifiers last read)
    (found : memberName last rest = some (name, post)) :
    ∃ modified star gap, read ++ rest = modified ++ star ++ name ++ (gap ++ post) ∧
      Modifiers memberModifiers modified ∧ MaybeStar star ∧ Blank gap ∧ IsName name ∧ NameStops (gap ++ post) := by
  rw [memberName_eq] at found
  rcases Option.or_eq_some_iff.1 found with named | ⟨-, last_named⟩
  · obtain ⟨star, cut, star_ok⟩ := memberStar_reads rest
    obtain ⟨cut_name, is_name, stops⟩ := identifier_reads named
    refine ⟨read, star, [], ?_, read_ok.modifiers, star_ok, .nil, is_name, stops⟩
    rw [cut_name] at cut
    simp only [cut, List.append_assoc, List.nil_append]
  · obtain ⟨w, rfl, same⟩ := Option.map_eq_some_iff.1 last_named
    obtain ⟨rfl, rfl⟩ := Prod.mk.inj same
    obtain ⟨modified, gap, cut, modified_ok, spaced, is_name⟩ :=
      read_ok.name_of_last (by decide +kernel)
    refine ⟨modified, [], gap, ?_, modified_ok, .inl rfl, spaced.1, is_name, spaced.nameStops _⟩
    rw [cut, List.append_nil]

/-- An attribute may have a `?` after its name; blanks that were read with a modifier follow the name. -/
theorem attributeName_reads {last : Option String} (read_ok : ReadModifiers attributeModifiers last read)
    (found : attributeName last rest = some (name, post)) :
    ∃ modified mark gap, read ++ rest = modified ++ name ++ (mark ++ (gap ++ post)) ∧
      Modifiers attributeModifiers modified ∧ (mark = [] ∨ mark = ['?']) ∧ Blank gap ∧ IsName name ∧
      NameStops (mark ++ (gap ++ post)) := by
  rw [attributeName_eq] at found
  rcases Option.or_eq_some_iff.1 found with past_name | ⟨-, last_named⟩
  · obtain ⟨⟨name', post'⟩, named, same⟩ := Option.map_eq_some_iff.1 past_name
    obtain ⟨rfl, rfl⟩ := Prod.mk.inj same
    obtain ⟨rfl, is_name, stops⟩ := identifier_reads named
    rcases pastMark_reads '?' id post' with same | ⟨r, rfl, past⟩
    · refine ⟨read, [], [], ?_, read_ok.modifiers, .inl rfl, .nil, is_name, ?_⟩
      · simp only [same, List.append_assoc, List.nil_append]
      · rwa [same]
    · refine ⟨read, ['?'], [], ?_, read_ok.modifiers, .inr rfl, .nil, is_name, ?_⟩
      · simp only [past, id, List.append_assoc, List.nil_append, List.cons_append]
      · rwa [past]
  · obtain ⟨w, rfl, same⟩ := Option.map_eq_some_iff.1 last_named
    obtain ⟨rfl, rfl⟩ := Prod.mk.inj same
    obtain ⟨modified, gap, cut, modified_ok, spaced, is_name⟩ :=
      read_ok.name_of_last (by decide +kernel)
    exact ⟨modified, [], gap, cut rest, modified_ok, .inl rfl, spaced.1, is_name, spaced.nameStops _⟩

theorem wholeName_after_modifiers {words : List String} {modified star : List Char} (blank : Blank margin)
    (modified_ok : Modifiers words modified) (star_ok : MaybeStar star) (is_name : IsName name)
    (stops : NameStops post) : WholeName (margin ++ (modified ++ star)) name post := by
  refine ⟨is_name, ?_, stops⟩
  rw [← List.append_assoc]
  rcases star_ok with rfl | ⟨right, rfl, blank'⟩
  · rw [List.append_nil]
    exact modified_ok.nameStarts blank.nameStarts
  · exact nameStarts_star blank'

theorem opensBody_reads (found : opensBody s = some ()) :
    ∃ left result tail, s = left ++ result ++ '{' :: tail ∧ Blank left ∧ (result = [] ∨ ResultType result) := by
  obtain ⟨left, cut, blank⟩ := skipBlanks_reads s
  unfold opensBody at found
  split at found
  · rename_i tail opened
    exact ⟨left, [], tail, by rwa [List.append_nil, ← opened], blank, .inl rfl⟩
  · rename_i r colon
    split at found
    · rename_i c type tail typed opened
      have inside : ∀ d ∈ c :: type, d ≠ '{' ∧ d ≠ ';' := by
        intro d member
        rw [← typed] at member
        simpa using List.mem_takeWhile_imp member
      refine ⟨left, ':' :: c :: type, tail, ?_, blank, .inr ⟨c :: type, rfl, List.cons_ne_nil _ _, ?_, ?_⟩⟩
      · have r_eq : r = c :: type ++ '{' :: tail := by
          rw [← typed, ← opened, List.takeWhile_append_dropWhile]
        rw [colon, r_eq] at cut
        rw [cut, List.append_assoc]
        rfl
      · exact fun member => (inside _ member).1 rfl
      · exact fun member => (inside _ member).2 rfl
    · cases found
  · cases found

theorem parametersAndBody_reads (found : parametersAndBody s = some ()) :
    ∃ tail, s = '(' :: tail ∧ Body tail := by
  unfold parametersAndBody at found
  split at found
  · rename_i t
    split at found
    · rename_i r closed
      obtain ⟨left, result, tail, rfl, blank, typed⟩ := opensBody_reads found
      refine ⟨t, rfl, t.takeWhile (· != ')'), left, result, tail, ?_, ?_, blank, typed⟩
      · rw [← closed, List.takeWhile_append_dropWhile]
      · exact fun member => by simpa using List.mem_takeWhile_imp member
    · cases found
  · cases found

theorem Parameters.after_blanks {inside : List Char → Prop} {gap : List Char} (blank : Blank gap)
    (opened : Parameters inside post) : Parameters inside (gap ++ post) := by
  obtain ⟨left, group, right, tail, rfl, blank', typed, blank'', inside_ok⟩ := opened
  exact ⟨gap ++ left, group, right, tail, by simp only [List.append_assoc], blank.append blank', typed, blank'',
    inside_ok⟩

theorem declares_of_memberHere (blank : Blank margin) (found : memberHere s = some name) :
    Declares .functionDecl (margin ++ s) (String.ofList name) := by
  obtain ⟨read, cut, read_ok⟩ := modifiers_reads memberModifiers s
  obtain ⟨⟨name', post⟩, named, found⟩ := Option.bind_eq_some_iff.1 found
  obtain ⟨_, parameters, taken⟩ := Option.bind_eq_some_iff.1 found
  dsimp only at taken
  split at taken
  · cases taken
  · rename_i no_control
    obtain rfl := Option.some.inj taken
    obtain ⟨modified, star, gap, cut_name, modified_ok, star_ok, blank', is_name, stops⟩ :=
      memberName_reads read_ok named
    have opened := parameters_of_afterTypeParameters (fun _ => parametersAndBody_reads) parameters
    refine declares_ofList ?_ (wholeName_after_modifiers blank modified_ok star_ok is_name stops)
      (.inr ⟨⟨margin, modified, star, rfl, blank, modified_ok, star_ok⟩, ?_, opened.after_blanks blank'⟩)
    · calc margin ++ s
        _ = margin ++ (modified ++ star ++ name' ++ (gap ++ post)) := by rw [← cut_name, ← cut]
        _ = _ := by simp only [List.append_assoc]
    · simpa using no_control

theorem givesValue_iff {op next : Char} : givesValue op next = true ↔
    next ≠ ';' ∧ ((op = '=' ∧ next ≠ '=' ∧ next ≠ '>') ∨ (op = ':' ∧ next ≠ ':')) := by
  simp [givesValue, and_assoc]

theorem givenValue_of_blanks {mark gap r tail : List Char} {op next : Char} (mark_ok : mark = [] ∨ mark = ['?'])
    (blank : Blank gap) (op_eq : skipBlanks post = op :: r) (next_eq : skipBlanks r = next :: tail)
    (value : givesValue op next = true) : GivenValue (mark ++ (gap ++ post)) := by
  obtain ⟨left, cut_left, blank_left⟩ := skipBlanks_reads post
  obtain ⟨right, cut_right, blank_right⟩ := skipBlanks_reads r
  obtain ⟨no_end, value⟩ := givesValue_iff.1 value
  refine ⟨mark, gap ++ left, op, right, next, tail, ?_, mark_ok, blank.append blank_left, blank_right,
    isBlank_of_skipBlanks next_eq, no_end, value⟩
  rw [op_eq] at cut_left
  rw [next_eq] at cut_right
  rw [cut_left, cut_right]
  simp only [List.append_assoc]

theorem declares_of_attributeHere (blank : Blank margin) (found : attributeHere s = some name) :
    Declares .attributeDecl (margin ++ s) (String.ofList name) := by
  obtain ⟨read, cut, read_ok⟩ := modifiers_reads attributeModifiers s
  obtain ⟨⟨name', post⟩, named, given⟩ := Option.bind_eq_some_iff.1 found
  obtain ⟨modified, mark, gap, cut_name, modified_ok, mark_ok, blank', is_name, stops⟩ :=
    attributeName_reads read_ok named
  obtain ⟨rfl, value⟩ : name' = name ∧ GivenValue (mark ++ (gap ++ post)) := by
    dsimp only at given
    split at given
    · rename_i op r op_eq
      split at given
      · rename_i next tail next_eq
        split at given
        · rename_i value
          exact ⟨Option.some.inj given, givenValue_of_blanks mark_ok blank' op_eq next_eq value⟩
        · cases given
      · cases given
    · cases given
  refine declares_ofList ?_ (wholeName_after_modifiers blank modified_ok (.inl rfl) is_name stops)
    ⟨⟨margin, modified, [], rfl, blank, modified_ok, rfl⟩, value⟩
  calc margin ++ s
    _ = margin ++ (modified ++ name' ++ (mark ++ (gap ++ post))) := by rw [← cut_name, ← cut]
    _ = _ := by simp only [List.append_assoc, List.append_nil]

end Members

/-! ## The standard rules -/

/-- A rule that finds nothing but declarations of its shape. -/
def Rule.Shaped (r : Rule) : Prop :=
  ∀ (line : String) (m : Occurrence), r.find line = some m → Declares r.kind line.toList m.name

theorem shaped_occurrence {kind : Kind} {here : List Char → Option (List Char)}
    (declares : ∀ {front s name}, Clear front → here s = some name →
      Declares kind (front ++ s) (String.ofList name)) : Rule.Shaped ⟨kind, occurrence here⟩ := by
  intro line m found
  obtain ⟨⟨before, name⟩, place, rfl⟩ := Option.map_eq_some_iff.1 found
  obtain ⟨rest, cut, matched, clear, -⟩ := leftmost_reads place
  rw [cut]
  exact declares clear matched

theorem Rule.Shaped.or {kind : Kind} {first second : String → Option Occurrence}
    (left : Rule.Shaped ⟨kind, first⟩) (right : Rule.Shaped ⟨kind, second⟩) :
    Rule.Shaped ⟨kind, fun line => (first line).or (second line)⟩ := by
  intro line m found
  rcases Option.or_eq_some_iff.1 found with found | ⟨-, found⟩
  · exact left line m found
  · exact right line m found

theorem shaped_indented {kind : Kind} {here : List Char → Option (List Char)}
    (declares : ∀ {margin s name}, Blank margin → here s = some name →
      Declares kind (margin ++ s) (String.ofList name))
    {find : String → Option Occurrence} {start : String → Nat}
    (find_eq : ∀ line, find line =
      (here (skipBlanks line.toList)).map fun name => ⟨String.ofList name, start line⟩) :
    Rule.Shaped ⟨kind, find⟩ := by
  intro line m found
  obtain ⟨name, named, rfl⟩ := Option.map_eq_some_iff.1 ((find_eq line).symm.trans found)
  obtain ⟨margin, cut, blank⟩ := skipBlanks_reads line.toList
  rw [cut]
  exact declares blank named

theorem shaped_variable : Rule.Shaped ⟨.variableDecl, findVariable⟩ := by
  intro line m found
  simp only [findVariable] at found
  split at found
  · rename_i before name post place
    split at found
    · cases found
    · rename_i allowed
      obtain rfl := Option.some.inj found
      obtain ⟨not_enum, not_compared⟩ := not_or.1 allowed
      obtain ⟨rest, cut, matched, clear, -⟩ := leftmost_reads place
      obtain ⟨pre, cut_name, after, whole⟩ := keywordName_reads clear matched
      refine declares_ofList (cut.trans cut_name) whole ⟨after, not_enum, ?_⟩
      rintro ⟨tail, starts⟩
      rw [afterWord_eq_some_iff.2 starts.symm] at not_compared
      exact not_compared rfl
  · cases found

theorem shaped_standard : ∀ r ∈ standardRules, r.Shaped := by
  intro r member
  simp only [standardRules, List.mem_cons, List.not_mem_nil, or_false] at member
  rcases member with rfl | rfl | rfl | rfl | rfl | rfl | rfl
  · exact shaped_occurrence (declares_of_keywordName fun _ _ _ after => after)
  · exact (shaped_occurrence declares_of_functionHere).or (shaped_indented declares_of_memberHere findMember_eq)
  · exact shaped_variable
  · exact shaped_indented declares_of_attributeHere findAttribute_eq
  · exact shaped_occurrence declares_of_enumHere
  · exact shaped_occurrence (declares_of_keywordName fun _ _ _ after => after)
  · exact shaped_occurrence declares_of_eventHere

/-- Whatever a line declares by the standard rules, it has the shape of: the name is a whole identifier of the
line, and what stands before it and after it is what its kind asks for. -/
theorem declares_of_classify (policy : ColumnPolicy) {line : String} {d : Declaration}
    (found : (Classifier.standard policy).classify line = some d) : Declares d.kind line.toList d.name := by
  unfold Classifier.classify at found
  split at found
  · rename_i kind m first
    split at found
    · cases found
    · obtain rfl := Option.some.inj found
      obtain ⟨r, member, chosen⟩ := List.exists_of_findSome?_eq_some first
      obtain ⟨m', in_code, same⟩ := Option.map_eq_some_iff.1 chosen
      obtain ⟨rfl, rfl⟩ := Prod.mk.inj same
      have matched : r.find line = some m' := (Option.filter_eq_some_iff.1 in_code).1
      exact shaped_standard r member line m' matched
  · cases found

/-- The second modifier is the name here. -/
theorem declares_of_classify_modifier :
    (Classifier.standard .matchStart).classify "  static get <T>(x) \x7b" = some ⟨.functionDecl, "get", some 2⟩ ∧
      Declares .functionDecl "  static get <T>(x) \x7b".toList "get" :=
  have found : (Classifier.standard .matchStart).classify "  static get <T>(x) \x7b" =
      some ⟨.functionDecl, "get", some 2⟩ := by decide +kernel
  ⟨found, declares_of_classify .matchStart found⟩

end CodeOutline.Line
