import CodeOutline.Proofs.Ink

/-!
# Proofs.Reading — what a recogniser has read, and what it has left

Each recogniser cuts its text in two: the part it stands for, described by a predicate of its own, and the rest
that it hands on. Nothing is said here about which cut is taken where there are several. The runs of blanks and
of name characters are taken whole, so a name that was read ends where no name character follows
(`identifier_reads`), and a keyword is found only where no word character stands right before it
(`leftmost_reads`).

Modifiers are read from left to right with the last one kept aside, because it may turn out to be the name
after all: what was read ends with that modifier and the blanks after it (`ReadModifiers`).
-/

namespace CodeOutline.Line

set_option autoImplicit false

open CodeOutline.Text

/-! ## Parts of a line -/

def Gap (s : List Char) : Prop := Blank s ∧ s ≠ []

def IsName (name : List Char) : Prop :=
  ∃ c rest, name = c :: rest ∧ isNameStart c = true ∧ ∀ d ∈ rest, isNameRest d = true

/-- A keyword may start after this text: it does not end in a word character. -/
def Clear (before : List Char) : Prop := ∀ c, before.getLast? = some c → isWord c = false

/-- A name may start after this text: it does not end in a name character. -/
def NameStarts (before : List Char) : Prop := ∀ c, before.getLast? = some c → isNameRest c = false

def NameStops (rest : List Char) : Prop := ∀ c, rest.head? = some c → isNameRest c = false

def TypeParameters (s : List Char) : Prop := ∃ inner, s = '<' :: inner ++ ['>'] ∧ '\n' ∉ inner

/-- Any number of modifiers, each with blanks after it. -/
inductive Modifiers (words : List String) : List Char → Prop where
  | none : Modifiers words []
  | more {s : List Char} (before : Modifiers words s) {w : String} (known : w ∈ words) {gap : List Char}
      (spaced : Gap gap) : Modifiers words (s ++ (w.toList ++ gap))

/-- What was read of the modifiers, the last of them kept aside: nothing, or some modifiers that end with it. -/
def ReadModifiers (words : List String) (last : Option String) (s : List Char) : Prop :=
  match last with
  | none => s = []
  | some w => w ∈ words ∧ ∃ before gap, s = before ++ (w.toList ++ gap) ∧ Modifiers words before ∧ Gap gap

section Parts

variable {s t : List Char}

theorem Blank.append (left : Blank s) (right : Blank t) : Blank (s ++ t) := by
  intro c member
  rcases List.mem_append.1 member with member | member
  · exact left c member
  · exact right c member

theorem blank_takeWhile (s : List Char) : Blank (s.takeWhile isBlank) :=
  fun _ member => List.mem_takeWhile_imp member

theorem clear_nil : Clear [] := by
  intro c last
  simp at last

theorem Gap.nameStops {gap : List Char} (spaced : Gap gap) (s : List Char) : NameStops (gap ++ s) := by
  obtain ⟨blank, some_blank⟩ := spaced
  obtain ⟨c, rest, rfl⟩ := List.exists_cons_of_ne_nil some_blank
  intro d first
  obtain rfl : c = d := by simpa using first
  exact isNameRest_of_isBlank blank.head

/-- After characters that are in no name, a name may start. -/
theorem nameStarts_append (some_char : t ≠ []) (outside : ∀ c ∈ t, isNameRest c = false) :
    NameStarts (s ++ t) := by
  intro c last
  rw [List.getLast?_append] at last
  rcases Option.or_eq_some_iff.1 last with last | ⟨nothing, -⟩
  · exact outside c (List.mem_of_getLast? last)
  · exact absurd (List.getLast?_eq_none_iff.1 nothing) some_char

theorem Gap.nameStarts {gap : List Char} (spaced : Gap gap) (s : List Char) : NameStarts (s ++ gap) :=
  nameStarts_append spaced.2 fun c member => isNameRest_of_isBlank (spaced.1 c member)

/-- A `*` is in no name, nor are the blanks after it. -/
theorem nameStarts_star (blank : Blank t) : NameStarts (s ++ '*' :: t) := by
  refine nameStarts_append (List.cons_ne_nil _ _) fun c member => ?_
  rcases List.mem_cons.1 member with rfl | member
  · decide
  · exact isNameRest_of_isBlank (blank c member)

theorem Blank.nameStarts (blank : Blank s) : NameStarts s :=
  fun c last => isNameRest_of_isBlank (blank c (List.mem_of_getLast? last))

theorem Modifiers.nameStarts {words : List String} (modified : Modifiers words t) (starts : NameStarts s) :
    NameStarts (s ++ t) := by
  cases modified with
  | none => rwa [List.append_nil]
  | more _ _ spaced =>
      rw [← List.append_assoc, ← List.append_assoc]
      exact spaced.nameStarts _

theorem ReadModifiers.modifiers {words : List String} {last : Option String} (read : ReadModifiers words last s) :
    Modifiers words s := by
  cases last with
  | none =>
      obtain rfl : s = [] := read
      exact .none
  | some w =>
      obtain ⟨known, before, gap, rfl, modified, spaced⟩ := read
      exact .more modified known spaced

end Parts

/-! ## Recognisers -/

section Recognisers

variable {α : Type} {s rest : List Char} {a : α}

theorem afterWord_eq_some_iff {w : List Char} : afterWord w s = some rest ↔ s = w ++ rest := by
  induction w generalizing s with
  | nil => simp [afterWord]
  | cons c w ih =>
      cases s with
      | nil => simp [afterWord]
      | cons d s =>
          by_cases same : c = d
          · simp [afterWord, same, ih]
          · have other : d ≠ c := fun h => same h.symm
            simp [afterWord, same, other]

theorem afterAny_reads {words : List String} {next : List Char → Option α} {w : String}
    (found : afterAny words next s = some (w, a)) :
    w ∈ words ∧ ∃ rest, s = w.toList ++ rest ∧ next rest = some a := by
  obtain ⟨w', known, chosen⟩ := List.exists_of_findSome?_eq_some found
  obtain ⟨b, read, same⟩ := Option.map_eq_some_iff.1 chosen
  obtain ⟨rfl, rfl⟩ := Prod.mk.inj same
  obtain ⟨rest, after, follows⟩ := Option.bind_eq_some_iff.1 read
  exact ⟨known, rest, afterWord_eq_some_iff.1 after, follows⟩

theorem skipBlanks_reads (s : List Char) : ∃ gap, s = gap ++ skipBlanks s ∧ Blank gap :=
  ⟨_, (takeWhile_append_skipBlanks s).symm, blank_takeWhile s⟩

/-- What is left after blanks does not start with another. -/
theorem isBlank_of_skipBlanks {c : Char} (left : skipBlanks s = c :: rest) : isBlank c = false := by
  have first := List.head?_dropWhile_not isBlank s
  rw [show s.dropWhile isBlank = c :: rest from left] at first
  simpa using first

theorem someBlanks_reads (found : someBlanks s = some rest) : ∃ gap, s = gap ++ rest ∧ Gap gap := by
  cases s with
  | nil => cases found
  | cons c s =>
      simp only [someBlanks] at found
      split at found
      · rename_i blank
        obtain ⟨gap, cut, blanks⟩ := skipBlanks_reads s
        obtain rfl := Option.some.inj found
        refine ⟨c :: gap, congrArg (c :: ·) cut, ?_, List.cons_ne_nil _ _⟩
        intro d member
        rcases List.mem_cons.1 member with rfl | member
        · exact blank
        · exact blanks d member
      · cases found

/-- A name is read as far as it goes. -/
theorem identifier_reads {name : List Char} (found : identifier s = some (name, rest)) :
    s = name ++ rest ∧ IsName name ∧ NameStops rest := by
  cases s with
  | nil => cases found
  | cons c s =>
      simp only [identifier] at found
      split at found
      · rename_i start
        obtain ⟨rfl, rfl⟩ := Prod.mk.inj (Option.some.inj found)
        refine ⟨?_, ⟨c, _, rfl, start, fun d member => List.mem_takeWhile_imp member⟩, ?_⟩
        · rw [List.cons_append, List.takeWhile_append_dropWhile]
        · intro d first
          have stopped := List.head?_dropWhile_not isNameRest s
          rw [first] at stopped
          simpa using stopped
      · cases found

/-- The leftmost place has no word character right before it. -/
theorem leftmost_reads {here : List Char → Option α} {fresh : Bool} {before : List Char}
    (found : leftmost here fresh s = some (before, a)) :
    ∃ rest, s = before ++ rest ∧ here rest = some a ∧ Clear before ∧ (before = [] → fresh = true) := by
  induction s generalizing fresh before with
  | nil => simp [leftmost] at found
  | cons c s ih =>
      simp only [leftmost] at found
      split at found
      · rename_i b matched
        obtain ⟨rfl, rfl⟩ := Prod.mk.inj (Option.some.inj found)
        split at matched
        · rename_i at_start
          exact ⟨c :: s, rfl, matched, clear_nil, fun _ => at_start⟩
        · cases matched
      · obtain ⟨⟨before', b⟩, later, same⟩ := Option.map_eq_some_iff.1 found
        obtain ⟨rfl, rfl⟩ := Prod.mk.inj same
        obtain ⟨rest, rfl, matched, clear, first⟩ := ih later
        refine ⟨rest, rfl, matched, ?_, fun nothing => absurd nothing (List.cons_ne_nil _ _)⟩
        intro d last
        cases before' with
        | nil =>
            obtain rfl : c = d := by simpa using last
            simpa using first rfl
        | cons e before' => exact clear d (by rwa [List.getLast?_cons_cons] at last)

theorem closeAngle_reads {next : List Char → Option α} (found : closeAngle next s = some a) :
    ∃ inner rest, s = inner ++ '>' :: rest ∧ '\n' ∉ inner ∧ next rest = some a := by
  induction s with
  | nil => cases found
  | cons c s ih =>
      simp only [closeAngle] at found
      have further : c ≠ '\n' → closeAngle next s = some a →
          ∃ inner rest, c :: s = inner ++ '>' :: rest ∧ '\n' ∉ inner ∧ next rest = some a := by
        intro inline later
        obtain ⟨inner, rest, rfl, one_line, follows⟩ := ih later
        exact ⟨c :: inner, rest, rfl, by simp [inline.symm, one_line], follows⟩
      split at found
      · cases found
      · rename_i inline
        split at found
        · rename_i angle
          rcases Option.or_eq_some_iff.1 found with here | ⟨-, later⟩
          · exact ⟨[], s, by rw [angle]; rfl, List.not_mem_nil, here⟩
          · exact further inline later
        · exact further inline found

theorem afterTypeParameters_reads {next : List Char → Option α}
    (found : afterTypeParameters next s = some a) :
    ∃ left group right rest, s = left ++ group ++ right ++ rest ∧ Blank left ∧
      (group = [] ∨ TypeParameters group) ∧ Blank right ∧ next rest = some a := by
  obtain ⟨left, cut, blank⟩ := skipBlanks_reads s
  unfold afterTypeParameters at found
  split at found
  · rename_i r opened
    obtain ⟨inner, t, rfl, one_line, follows⟩ := closeAngle_reads found
    obtain ⟨right, cut', blank'⟩ := skipBlanks_reads t
    refine ⟨left, '<' :: inner ++ ['>'], right, skipBlanks t, ?_, blank, .inr ⟨inner, rfl, one_line⟩, blank',
      follows⟩
    rw [opened] at cut
    simp only [cut, List.cons_append, List.append_assoc, List.nil_append, ← cut']
  · exact ⟨left, [], [], skipBlanks s, by simpa using cut, blank, .inl rfl, .nil, found⟩

/-- One modifier more, with its blanks. -/
theorem ReadModifiers.step {words : List String} {last : Option String} {before : List Char} {w : String}
    (read : ReadModifiers words last before) (found : afterAny words someBlanks s = some (w, rest)) :
    ∃ more, s = more ++ rest ∧ ReadModifiers words (some w) (before ++ more) := by
  obtain ⟨known, r, rfl, spaced⟩ := afterAny_reads found
  obtain ⟨gap, rfl, gap_ok⟩ := someBlanks_reads spaced
  exact ⟨w.toList ++ gap, by rw [List.append_assoc], known, before, gap, rfl, read.modifiers, gap_ok⟩

theorem modifiersUpTo_reads {words : List String} {n : Nat} {last : Option String} {before : List Char}
    (read : ReadModifiers words last before) :
    ∃ more, s = more ++ (modifiersUpTo words n last s).2 ∧
      ReadModifiers words (modifiersUpTo words n last s).1 (before ++ more) := by
  induction n generalizing last before s with
  | zero => exact ⟨[], rfl, by rwa [List.append_nil]⟩
  | succ n ih =>
      simp only [modifiersUpTo]
      split
      · rename_i w r found
        obtain ⟨more, rfl, step⟩ := read.step found
        obtain ⟨more', cut, run⟩ := ih (s := r) step
        refine ⟨more ++ more', ?_, ?_⟩
        · rw [List.append_assoc, ← cut]
        · rwa [← List.append_assoc]
      · exact ⟨[], rfl, by rwa [List.append_nil]⟩

theorem modifiers_reads (words : List String) (s : List Char) :
    ∃ read, s = read ++ (modifiers words s).2 ∧ ReadModifiers words (modifiers words s).1 read := by
  have nothing : ReadModifiers words none [] := rfl
  exact modifiersUpTo_reads nothing

end Recognisers

end CodeOutline.Line
