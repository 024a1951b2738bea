import CodeOutline.Proofs.WordScan

/-!
# Proofs.LineTokens — lines `name: value` as the scanner reads them

The tokens of such lines are those of a block mapping with one key a line (`tokens_of_lines`). The scanner takes
three steps for a line, or four if there is a tag, and stands at the start of the next line after them
(`run_line`); the whole text follows by induction on its lines. If one of the names is too long to be a key, the
text breaks off there (`tokens_of_long_lines`).
-/

namespace CodeOutline.Yaml

set_option autoImplicit false

/-! ## Lines of names and values -/

/-- A line `name: word`, perhaps with the tag `!fixed` before the word. -/
structure Line where
  name : String
  tagged : Bool
  word : String
  deriving DecidableEq

namespace Line

def value (l : Line) : List Char :=
  if l.tagged then "!fixed".toList ++ ' ' :: l.word.toList else l.word.toList

def chars (l : Line) : List Char := l.name.toList ++ ':' :: ' ' :: (l.value ++ ['\n'])

def tokens (l : Line) : List Token :=
  .key :: .scalar .plain l.name :: .value ::
    (if l.tagged then [.tag "!" ⟨"fixed", true⟩, .scalar .plain l.word] else [.scalar .plain l.word])

def steps (l : Line) : Nat := if l.tagged then 4 else 3

structure WellFormed (l : Line) : Prop where
  name : IsWord l.name.toList
  word : IsWord l.word.toList

theorem steps_le_length (l : Line) (wellFormed : l.WellFormed) : l.steps ≤ l.chars.length := by
  have name : 0 < l.name.toList.length := List.length_pos_iff.2 wellFormed.name.1
  simp only [steps, chars, List.length_append, List.length_cons]
  split <;> omega

/-- Lines hold nothing that is refused, and no line break but `\n`. -/
theorem isAllowed_of_mem_chars (l : Line) (wellFormed : l.WellFormed) {c : Char} (member : c ∈ l.chars) :
    isAllowed c = true ∧ c ≠ '\r' ∧ c ≠ '\u0085' := by
  have marks : (": !fixed\n".toList.all fun d => isAllowed d ∧ d ≠ '\r' ∧ d ≠ '\u0085') = true := by decide
  have parts : isWordChar c = true ∨ c ∈ ": !fixed\n".toList := by
    simp only [chars, value, List.mem_append, List.mem_cons, List.not_mem_nil, or_false] at member
    rcases member with name | rfl | rfl | inside | rfl
    · exact .inl (wellFormed.name.2 c name)
    · decide
    · decide
    · split at inside
      · rcases List.mem_append.1 inside with tag | inside
        · exact .inr ((by decide : "!fixed".toList ⊆ ": !fixed\n".toList) tag)
        · rcases List.mem_cons.1 inside with rfl | word
          · decide
          · exact .inl (wellFormed.word.2 c word)
      · exact .inl (wellFormed.word.2 c inside)
    · decide
  rcases parts with word | mark
  · refine ⟨isAllowed_of_isWordChar word, ?_, ?_⟩
    · simpa using beq_eq_false_of_isWordChar (d := '\r') word (by decide)
    · simpa using beq_eq_false_of_isWordChar (d := '\u0085') word (by decide)
  · simpa using List.all_eq_true.1 marks c mark

theorem startsLine_chars (l : Line) (wellFormed : l.WellFormed) (s : List Char) : StartsLine (l.chars ++ s) := by
  obtain ⟨c, w, starts⟩ := List.exists_cons_of_ne_nil wellFormed.name.1
  simp only [StartsLine, chars, starts, List.cons_append, List.head?_cons, Option.mem_some_iff, forall_eq']
  exact wellFormed.name.2 c (by simp [starts])

theorem startsLine_flatMap {ls : List Line} (wellFormed : ∀ l ∈ ls, l.WellFormed) :
    StartsLine (ls.flatMap chars) := by
  cases ls with
  | nil => simp [StartsLine]
  | cons l ls => exact l.startsLine_chars (wellFormed l List.mem_cons_self) _

/-- The last token of a line is not that of the end. -/
theorem head?_reverse_tokens (l : Line) (ts : List Token) :
    (l.tokens.reverse ++ ts).head? ≠ some .textEnd := by
  cases tagged : l.tagged <;> simp [tokens, tagged]

end Line

namespace Reading

/-- One step of a run whose text is not at its end. -/
theorem run_step {r next : Reading} (going : r.tokens.head? ≠ some .textEnd) (step : r.step = some next)
    (n : Nat) : run false (n + 1) r = run false n next := by
  simp [run, going, step]

theorem run_stuck {r : Reading} (going : r.tokens.head? ≠ some .textEnd) (stuck : r.step = none) (n : Nat) :
    run false (n + 1) r = (r.settled, false) := by
  simp [run, going, stuck]

/-- The run over one line. -/
theorem run_line {l : Line} (wellFormed : l.WellFormed) (short : l.name.length ≤ 1024) {line low : Nat}
    (shallow : low ≤ 1) {outerLows : List Nat} {tokens : List Token} (going : tokens.head? ≠ some .textEnd)
    {s : List Char} (next : StartsLine s) (n : Nat) :
    run false (n + l.steps) (atLine line low outerLows tokens (l.chars ++ s)) =
      run false n (atLine (line + 1) 1 (opened low outerLows tokens).1
        (l.tokens.reverse ++ (opened low outerLows tokens).2) s) := by
  have length : l.name.toList.length ≤ 1024 := short
  have text : l.chars ++ s = l.name.toList ++ ':' :: ' ' :: (l.value ++ '\n' :: s) := by simp [Line.chars]
  have first : ∀ n, run false (n + 2) (atLine line low outerLows tokens (l.chars ++ s)) =
      run false n (inLine line (l.name.toList.length + 1) (opened low outerLows tokens).1
        (.value :: .scalar .plain l.name :: .key :: (opened low outerLows tokens).2)
        (' ' :: (l.value ++ '\n' :: s))) := by
    intro n
    rw [text, run_step going ((step_name wellFormed.name shallow _ _ _).trans (dropStale_afterName length)),
      run_step (by simp [afterName]) (step_colon shallow _ _ length _), String.ofList_toList]
  cases tagged : l.tagged with
  | false =>
      have value : l.value = l.word.toList := by simp [Line.value, tagged]
      have steps : n + l.steps = n + 1 + 2 := by simp [Line.steps, tagged]
      rw [steps, first, value, run_step (by simp [inLine]) (step_word wellFormed.word _ _ _ _ next)]
      simp [Line.tokens, tagged]
  | true =>
      have value : ' ' :: (l.value ++ '\n' :: s) =
          ' ' :: "!fixed".toList ++ ' ' :: (l.word.toList ++ '\n' :: s) := by
        simp [Line.value, tagged]
      have steps : n + l.steps = n + 1 + 1 + 2 := by simp [Line.steps, tagged]
      rw [steps, first, value, run_step (by simp [inLine]) (step_tag _ _ _ _ _),
        run_step (by simp [inLine]) (step_word wellFormed.word _ _ _ _ next)]
      simp [Line.tokens, tagged]

/-- A line with a longer name breaks the text off. -/
theorem run_long_line {l : Line} (wellFormed : l.WellFormed) (long : 1024 < l.name.length) {line low : Nat}
    (shallow : low ≤ 1) {outerLows : List Nat} {tokens : List Token} (going : tokens.head? ≠ some .textEnd)
    (s : List Char) (n : Nat) :
    (run false n (atLine line low outerLows tokens (l.chars ++ s))).2 = false := by
  have text : l.chars ++ s = l.name.toList ++ ':' :: ' ' :: (l.value ++ '\n' :: s) := by simp [Line.chars]
  rw [text]
  cases n with
  | zero => rfl
  | succ n =>
      obtain stuck | ⟨next, step, going', stuck⟩ :=
        step_long_name wellFormed.name shallow outerLows tokens (l.value ++ '\n' :: s) long
      · exact congrArg Prod.snd (run_stuck going stuck n)
      · rw [run_step going step]
        cases n with
        | zero => rfl
        | succ n => exact congrArg Prod.snd (run_stuck going' stuck n)

/-- The end of the text after the lines of a mapping. -/
theorem run_end (line : Nat) {tokens : List Token} (going : tokens.head? ≠ some .textEnd) (n : Nat) :
    run false (n + 2) (atLine line 1 [0] tokens []) = (tokens.reverse ++ [.blockEnd, .textEnd], true) := by
  have step : (atLine line 1 [0] tokens []).step =
      some { atLine (line + 1) 0 [] (.textEnd :: .blockEnd :: tokens) [] with keyOk := false } := rfl
  rw [run_step going step]
  simp [run, atLine]

/-- The run over the lines of a mapping, to the end of the text. The mapping stays open from line to line, so
only the tokens read so far vary. -/
theorem run_lines {ls : List Line} (wellFormed : ∀ l ∈ ls, l.WellFormed) (short : ∀ l ∈ ls, l.name.length ≤ 1024)
    (line : Nat) {tokens : List Token} (going : tokens.head? ≠ some .textEnd) {n : Nat}
    (enough : (ls.flatMap Line.chars).length + 2 ≤ n) :
    run false n (atLine line 1 [0] tokens (ls.flatMap Line.chars)) =
      (tokens.reverse ++ (ls.flatMap Line.tokens ++ [.blockEnd, .textEnd]), true) := by
  induction ls generalizing line tokens n with
  | nil =>
      obtain ⟨n, rfl⟩ := Nat.exists_eq_add_of_le' enough
      exact run_end line going n
  | cons l ls ih =>
      obtain ⟨here, later⟩ := List.forall_mem_cons.1 wellFormed
      obtain ⟨fits, fit⟩ := List.forall_mem_cons.1 short
      have room := l.steps_le_length here
      rw [List.flatMap_cons, List.length_append] at enough
      obtain ⟨m, rfl⟩ : ∃ m, n = m + l.steps := ⟨n - l.steps, by omega⟩
      rw [List.flatMap_cons, run_line here fits (Nat.le_refl 1) going (Line.startsLine_flatMap later)]
      change run false m (atLine (line + 1) 1 [0] (l.tokens.reverse ++ tokens) _) = _
      rw [ih later fit (line + 1) (l.head?_reverse_tokens tokens) (by omega)]
      simp

/-- The run over some lines of which one has a longer name breaks off. -/
theorem run_long_lines {ls : List Line} (wellFormed : ∀ l ∈ ls, l.WellFormed)
    (long : ∃ l ∈ ls, 1024 < l.name.length) {line low : Nat} (shallow : low ≤ 1) {outerLows : List Nat}
    {tokens : List Token} (going : tokens.head? ≠ some .textEnd) {n : Nat}
    (enough : (ls.flatMap Line.chars).length ≤ n) :
    (run false n (atLine line low outerLows tokens (ls.flatMap Line.chars))).2 = false := by
  induction ls generalizing line low outerLows tokens n with
  | nil => simp at long
  | cons l ls ih =>
      obtain ⟨here, later⟩ := List.forall_mem_cons.1 wellFormed
      rw [List.flatMap_cons] at enough ⊢
      by_cases fits : l.name.length ≤ 1024
      · have room := l.steps_le_length here
        rw [List.length_append] at enough
        obtain ⟨m, rfl⟩ : ∃ m, n = m + l.steps := ⟨n - l.steps, by omega⟩
        rw [run_line here fits shallow going (Line.startsLine_flatMap later)]
        obtain ⟨l', member, long'⟩ := long
        rcases List.mem_cons.1 member with rfl | member
        · omega
        · exact ih later ⟨l', member, long'⟩ (Nat.le_refl 1) (l.head?_reverse_tokens _) (by omega)
      · exact run_long_line here (Nat.lt_of_not_le fits) shallow going _ n

end Reading

/-- The scanner takes lines in as they are. -/
theorem tokens_eq_run {ls : List Line} (wellFormed : ∀ l ∈ ls, l.WellFormed) {text : String}
    (written : text.toList = ls.flatMap Line.chars) :
    tokens text = Reading.run false ((ls.flatMap Line.chars).length + 2)
      (Reading.atLine 0 0 [] [] (ls.flatMap Line.chars)) := by
  have marks : ∀ c ∈ text.toList, isAllowed c = true ∧ c ≠ '\r' ∧ c ≠ '\u0085' := by
    intro c member
    rw [written] at member
    obtain ⟨l, inside, member⟩ := List.mem_flatMap.1 member
    exact l.isAllowed_of_mem_chars (wellFormed l inside) member
  have whole : refusedFrom 0 0 0 text.toList = none :=
    refusedFrom_eq_none (fun c member => (marks c member).1) 0 0 0
  have breaks : oneBreak text.toList = text.toList :=
    oneBreak_eq_self fun c member => (marks c member).2
  have length : text.length = (ls.flatMap Line.chars).length := by rw [← written, String.length_toList]
  simp only [tokens, whole, breaks, length]
  rw [written]
  rfl

/-- The tokens of some lines, if no name is too long to be a key: a mapping with a key for each. -/
theorem tokens_of_lines {l : Line} {ls : List Line} (wellFormed : ∀ l' ∈ l :: ls, l'.WellFormed)
    (short : ∀ l' ∈ l :: ls, l'.name.length ≤ 1024) {text : String}
    (written : text.toList = (l :: ls).flatMap Line.chars) :
    tokens text = (.blockMapping :: ((l :: ls).flatMap Line.tokens ++ [.blockEnd, .textEnd]), true) := by
  obtain ⟨here, later⟩ := List.forall_mem_cons.1 wellFormed
  obtain ⟨fits, fit⟩ := List.forall_mem_cons.1 short
  have room := l.steps_le_length here
  rw [tokens_eq_run wellFormed written]
  simp only [List.flatMap_cons, List.length_append]
  obtain ⟨m, count⟩ : ∃ m, l.chars.length + (ls.flatMap Line.chars).length + 2 = m + l.steps :=
    ⟨l.chars.length + (ls.flatMap Line.chars).length + 2 - l.steps, by omega⟩
  rw [count, Reading.run_line here fits (Nat.zero_le 1) (by simp) (Line.startsLine_flatMap later)]
  change Reading.run false m (Reading.atLine 1 1 [0] (l.tokens.reverse ++ [.blockMapping]) _) = _
  rw [Reading.run_lines later fit 1 (l.head?_reverse_tokens _) (by omega)]
  simp

theorem tokens_of_no_line {text : String} (empty : text.toList = []) : tokens text = ([.textEnd], true) := by
  have none : ∀ l ∈ ([] : List Line), l.WellFormed := nofun
  rw [tokens_eq_run none empty]
  rfl

/-- Lines of which one has a name that is too long are no whole text. -/
theorem tokens_of_long_lines {ls : List Line} (wellFormed : ∀ l ∈ ls, l.WellFormed)
    (long : ∃ l ∈ ls, 1024 < l.name.length) {text : String} (written : text.toList = ls.flatMap Line.chars) :
    (tokens text).2 = false := by
  rw [tokens_eq_run wellFormed written]
  exact Reading.run_long_lines wellFormed long (Nat.zero_le 1) (by simp) (Nat.le_add_right _ 2)

end CodeOutline.Yaml
