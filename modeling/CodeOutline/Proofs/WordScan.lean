import CodeOutline.Yaml.Token

/-!
# Proofs.WordScan — the scanner on words

A word is made of letters, digits and `_`. Nothing in it means anything to the scanner, so a plain scalar takes
a word in as it stands, and what matters is what follows. A word before `: ` may be a key, and is one if it is
at most 1024 characters long; the first key opens a mapping (`step_name`, `step_colon`). A longer word is none,
and the text breaks off behind it (`step_long_name`). After a key come perhaps the tag `!fixed` (`step_tag`) and
then a word with the end of its line (`step_word`).

The places between these steps have names: `Reading.atLine` at the start of a line, `Reading.afterName` behind
what may be a key, and `Reading.inLine` in front of what belongs to the value.
-/

namespace CodeOutline.Yaml

set_option autoImplicit false

/-! ## Characters of words -/

def isWordChar (c : Char) : Bool := c.isAlphanum || c == '_'

/-- A word: at least one character, and no other ones. -/
def IsWord (s : List Char) : Prop := s ≠ [] ∧ ∀ c ∈ s, isWordChar c = true

instance (s : List Char) : Decidable (IsWord s) :=
  decidable_of_iff (s ≠ [] ∧ s.all isWordChar = true) (and_congr_right' List.all_eq_true)

section WordChar

variable {c : Char}

theorem isWordChar_of_isLower (lower : c.isLower = true) : isWordChar c = true := by
  change (c.isUpper || c.isLower || c.isDigit || c == '_') = true
  simp [lower]

theorem toNat_of_isWordChar (word : isWordChar c = true) : 48 ≤ c.toNat ∧ c.toNat ≤ 122 := by
  change (decide ('A'.val ≤ c.val ∧ c.val ≤ 'Z'.val) || (decide ('a'.val ≤ c.val) && decide (c.val ≤ 'z'.val)) ||
    c.isDigit || c == '_') = true at word
  simp only [Char.isDigit, Bool.or_eq_true, Bool.and_eq_true, decide_eq_true_eq, beq_iff_eq, ge_iff_le,
    UInt32.le_iff_toNat_le] at word
  change (((65 ≤ c.toNat ∧ c.toNat ≤ 90) ∨ (97 ≤ c.toNat ∧ c.toNat ≤ 122)) ∨
    (48 ≤ c.toNat ∧ c.toNat ≤ 57)) ∨ c = '_' at word
  rcases word with range | rfl
  · omega
  · decide

theorem utf8Size_of_isWordChar (word : isWordChar c = true) : c.utf8Size = 1 := by
  have range := toNat_of_isWordChar word
  have small : c.val ≤ 0x7f := by
    rw [UInt32.le_iff_toNat_le]
    change c.toNat ≤ 127
    omega
  simp [Char.utf8Size, small]

theorem isAllowed_of_isWordChar (word : isWordChar c = true) : isAllowed c = true := by
  have range := toNat_of_isWordChar word
  have low : ' ' ≤ c := by
    rw [Char.le_def, UInt32.le_iff_toNat_le]
    change 32 ≤ c.toNat
    omega
  have high : c ≤ '~' := by
    rw [Char.le_def, UInt32.le_iff_toNat_le]
    change c.toNat ≤ 126
    omega
  simp [isAllowed, low, high]

/-- A character of words differs from every other one. -/
theorem beq_eq_false_of_isWordChar (word : isWordChar c = true) {d : Char} (other : isWordChar d = false) :
    (c == d) = false := by
  rw [beq_eq_false_iff_ne]
  rintro rfl
  rw [word] at other
  cases other

theorem isSpace_of_isWordChar (word : isWordChar c = true) : isSpace c = false := by
  simp (disch := decide) only [isSpace, beq_eq_false_of_isWordChar word, Bool.or_self]

theorem isBreak_of_isWordChar (word : isWordChar c = true) : isBreak c = false := by
  simp (disch := decide) only [isBreak, beq_eq_false_of_isWordChar word, Bool.or_self]

theorem isIndicator_of_isWordChar (word : isWordChar c = true) : isIndicator c = false := by
  simp (disch := decide) only [isIndicator, isFlowMark, beq_eq_false_of_isWordChar word, Bool.or_self]

end WordChar

/-! ## The scanner on words -/

/-- A text of characters that are all allowed is taken in whole. -/
theorem refusedFrom_eq_none {s : List Char} (allowed : ∀ c ∈ s, isAllowed c = true) (done here size : Nat) :
    refusedFrom done here size s = none := by
  induction s generalizing done here size with
  | nil => rfl
  | cons c s ih =>
      obtain ⟨first, later⟩ := List.forall_mem_cons.1 allowed
      simp only [refusedFrom, first, if_true]
      split <;> exact ih later _ _ _

/-- A text whose only line break is `\n` has one sort of line break already. -/
theorem oneBreak_eq_self {s : List Char} (single : ∀ c ∈ s, c ≠ '\r' ∧ c ≠ '\u0085') : oneBreak s = s := by
  fun_induction oneBreak s with
  | case1 => rfl
  | case2 s ih => simp at single
  | case3 c s _ ih =>
      obtain ⟨first, later⟩ := List.forall_mem_cons.1 single
      simp [first.1, first.2, ih later]

namespace Place

def along (p : Place) (n : Nat) : Place := ⟨p.line, p.column + n, p.width + n⟩

theorem foldl_after_of_word {w : List Char} (word : ∀ c ∈ w, isWordChar c = true) (p : Place) :
    w.foldl Place.after p = p.along w.length := by
  induction w generalizing p with
  | nil => rfl
  | cons c w ih =>
      obtain ⟨first, later⟩ := List.forall_mem_cons.1 word
      have next : p.after c = p.along 1 := by
        simp [Place.after, along, isBreak_of_isWordChar first, utf8Size_of_isWordChar first]
      rw [List.foldl_cons, next, ih later, List.length_cons]
      simp only [along, Nat.add_assoc, Nat.add_comm 1]

end Place

namespace Cursor

theorem atThree_eq_false {p : Place} {c mark : Char} {s : List Char} (other : c ≠ mark) :
    atThree ⟨p, c :: s⟩ mark = false := by
  unfold atThree
  split
  · rename_i shape
    obtain ⟨rfl, -⟩ := List.cons.inj shape
    simp [other]
  · simp

theorem atMarker_eq_false {p : Place} {c : Char} {s : List Char} (dash : c ≠ '-') (dot : c ≠ '.') :
    atMarker ⟨p, c :: s⟩ = false := by
  rw [atMarker, atThree_eq_false dash, atThree_eq_false dot]
  rfl

end Cursor

/-- The characters of a word are read one by one. -/
theorem plainFrom_word {w : List Char} (word : ∀ c ∈ w, isWordChar c = true) (low : Nat) (read : List Char)
    (p : Place) (s : List Char) :
    plainFrom false low read {} p (w ++ s) =
      plainFrom false low (w.reverse ++ read) {} (p.along w.length) s := by
  rw [← Place.foldl_after_of_word word]
  induction w generalizing read p with
  | nil => rfl
  | cons c w ih =>
      obtain ⟨first, later⟩ := List.forall_mem_cons.1 word
      have plain := isIndicator_of_isWordChar first
      simp only [isIndicator, Bool.or_eq_false_iff, beq_eq_false_iff_ne] at plain
      have dot : c ≠ '.' := by simpa using beq_eq_false_of_isWordChar (d := '.') first (by decide)
      have marker : Cursor.atMarker ⟨p, c :: (w ++ s)⟩ = false := Cursor.atMarker_eq_false (by simp_all) dot
      rw [List.cons_append, plainFrom]
      simp [isSpace_of_isWordChar first, isBreak_of_isWordChar first, marker, plain, ih later, Gap.onto]

/-- A plain scalar ends before a `:` and a blank. -/
theorem plainFrom_colon (low : Nat) (read : List Char) (p : Place) (s : List Char) :
    plainFrom false low read {} p (':' :: ' ' :: s) =
      some ⟨String.ofList read.reverse, false, ⟨p, ':' :: ' ' :: s⟩⟩ := by
  have marker : Cursor.atMarker ⟨p, ':' :: ' ' :: s⟩ = false :=
    Cursor.atMarker_eq_false (by decide) (by decide)
  rw [plainFrom]
  simp [isSpace, isBreak, marker, startsBlank]

/-- What may follow a line: nothing, or a line that starts with a word. -/
def StartsLine (s : List Char) : Prop := ∀ c ∈ s.head?, isWordChar c = true

/-- Inside a block collection a plain scalar ends with its line if the next one is not indented. -/
theorem plainFrom_lineEnd {low : Nat} (inside : 0 < low) (read : List Char) (p : Place) {s : List Char}
    (next : StartsLine s) :
    plainFrom false low read {} p ('\n' :: s) =
      some ⟨String.ofList read.reverse, true, ⟨⟨p.line + 1, 0, 0⟩, s⟩⟩ := by
  cases s with
  | nil => rfl
  | cons c s =>
      have first : isWordChar c = true := next c rfl
      rw [plainFrom]
      simp only [show isSpace '\n' = false from rfl, show isBreak '\n' = true from rfl, if_true,
        Bool.false_eq_true, if_false]
      rw [plainFrom]
      simp [isSpace_of_isWordChar first, isBreak_of_isWordChar first, Gap.newLine, Place.after,
        show isBreak '\n' = true from rfl, inside]

namespace Cursor

/-- Nothing is passed over before a character that is no blank, no break and starts no comment. -/
theorem skip_eq_self {p : Place} {c : Char} {s : List Char} (space : isSpace c = false)
    (unbroken : isBreak c = false) (comment : c ≠ '#') (mark : c ≠ '\ufeff') (keyOk : Bool) :
    Cursor.skip ⟨p, c :: s⟩ false keyOk = (keyOk, ⟨p, c :: s⟩) := by
  simp only [isSpace, Bool.or_eq_false_iff, beq_eq_false_iff_ne] at space
  simp [Cursor.skip, skipFrom, unbroken, comment, mark, space]

theorem skip_of_isWordChar {p : Place} {c : Char} {s : List Char} (word : isWordChar c = true)
    (keyOk : Bool) : Cursor.skip ⟨p, c :: s⟩ false keyOk = (keyOk, ⟨p, c :: s⟩) := by
  apply skip_eq_self (isSpace_of_isWordChar word) (isBreak_of_isWordChar word)
  · simpa using beq_eq_false_of_isWordChar (d := '#') word (by decide)
  · simpa using beq_eq_false_of_isWordChar (d := '\ufeff') word (by decide)

end Cursor

namespace Reading

def atLine (line low : Nat) (outerLows : List Nat) (tokens : List Token) (rest : List Char) : Reading :=
  { cursor := ⟨⟨line, 0, 0⟩, rest⟩, tokens, low, outerLows }

def afterName (line low : Nat) (outerLows : List Nat) (tokens : List Token) (name rest : List Char) : Reading :=
  { cursor := ⟨⟨line, name.length, name.length⟩, rest⟩
    tokens := .scalar .plain (String.ofList name) :: tokens
    low, outerLows
    keyPlace := some ⟨⟨line, 0, 0⟩, tokens.length, low == 1⟩
    keyOk := false }

def inLine (line column : Nat) (outerLows : List Nat) (tokens : List Token) (rest : List Char) : Reading :=
  { cursor := ⟨⟨line, column, column⟩, rest⟩, tokens, low := 1, outerLows, keyOk := false }

theorem dropStale_of_no_key {r : Reading} (key : r.keyPlace = none) (outer : r.outerKeys = []) :
    r.dropStale = some r := by
  obtain ⟨_, _, _, _, _, _, _⟩ := r
  subst key outer
  rfl

theorem closeFrom_eq_self {column low : Nat} (inside : low ≤ column) (outerLows : List Nat)
    (tokens : List Token) : closeFrom column low outerLows tokens = (low, outerLows, tokens) := by
  cases outerLows with
  | nil => rfl
  | cons outer rest => rw [closeFrom, if_neg (Nat.not_lt.2 inside)]

theorem closeBlocks_eq_self {r : Reading} {column : Nat} (inside : r.low ≤ column) :
    r.closeBlocks column = r := by
  unfold closeBlocks
  split
  · rfl
  · rw [closeFrom_eq_self inside]

/-- A character of words starts a plain scalar. -/
theorem readToken_of_isWordChar {r : Reading} {c : Char} {s : List Char} (rest : r.cursor.rest = c :: s)
    (word : isWordChar c = true) : r.readToken = r.readPlain := by
  obtain ⟨⟨p, _⟩, tokens, low, outerLows, keyPlace, outerKeys, keyOk⟩ := r
  obtain rfl : _ = c :: s := rest
  have plain := isIndicator_of_isWordChar word
  have dot : c ≠ '.' := by simpa using beq_eq_false_of_isWordChar (d := '.') word (by decide)
  simp only [isIndicator, isFlowMark, Bool.or_eq_false_iff, beq_eq_false_iff_ne] at plain
  have dash : c ≠ '-' := by simp_all
  simp [readToken, startsPlain, isIndicator, isFlowMark, isSpace_of_isWordChar word,
    isBreak_of_isWordChar word, Cursor.atThree_eq_false dash, Cursor.atThree_eq_false dot, plain]

/-- A step where no key is stale and no block ends: what the next token makes of the place it starts at. -/
theorem step_eq {r : Reading} {keyOk : Bool} {cursor : Cursor}
    (skipped : r.cursor.skip r.flow r.keyOk = (keyOk, cursor))
    (fresh : { r with cursor, keyOk }.dropStale = some { r with cursor, keyOk })
    (inside : r.low ≤ cursor.column + 1) :
    r.step = ({ r with cursor, keyOk }.readToken).bind dropStale := by
  have kept : { r with cursor, keyOk }.closeBlocks (cursor.column + 1) = { r with cursor, keyOk } :=
    closeBlocks_eq_self inside
  simp only [step, skipped, fresh, kept, Option.bind_eq_bind, Option.bind_some]

/-- A plain scalar, once the place of a key that it may be is saved. -/
theorem readPlain_eq {r saved : Reading} (save : r.saveKey = some saved) {s : Plain}
    (scalar : plain saved.flow saved.low saved.cursor = some s) :
    r.readPlain = some { saved.emit (.scalar .plain s.text) with cursor := s.stop, keyOk := s.broken } := by
  simp [readPlain, save, scalar]

/-- A word in front of `: ` is read as what may be a key. What becomes of it is seen when the keys that are too
far back are dropped. -/
theorem step_name {name : List Char} (word : IsWord name) {line low : Nat} (shallow : low ≤ 1)
    (outerLows : List Nat) (tokens : List Token) (s : List Char) :
    (atLine line low outerLows tokens (name ++ ':' :: ' ' :: s)).step =
      (afterName line low outerLows tokens name (':' :: ' ' :: s)).dropStale := by
  obtain ⟨c, w, starts⟩ := List.exists_cons_of_ne_nil word.1
  have first : isWordChar c = true := word.2 c (by simp [starts])
  obtain ⟨t, rest⟩ : ∃ t, name ++ ':' :: ' ' :: s = c :: t := ⟨w ++ ':' :: ' ' :: s, by simp [starts]⟩
  have skipped : Cursor.skip ⟨⟨line, 0, 0⟩, name ++ ':' :: ' ' :: s⟩ false true =
      (true, ⟨⟨line, 0, 0⟩, name ++ ':' :: ' ' :: s⟩) := by
    rw [rest]
    exact Cursor.skip_of_isWordChar first true
  have scalar : plain false low ⟨⟨line, 0, 0⟩, name ++ ':' :: ' ' :: s⟩ =
      some ⟨String.ofList name, false, ⟨⟨line, name.length, name.length⟩, ':' :: ' ' :: s⟩⟩ := by
    rw [plain, plainFrom_word word.2, plainFrom_colon]
    simp [Place.along]
  have save : (atLine line low outerLows tokens (name ++ ':' :: ' ' :: s)).saveKey =
      some { atLine line low outerLows tokens (name ++ ':' :: ' ' :: s) with
        keyPlace := some ⟨⟨line, 0, 0⟩, tokens.length, low == 1⟩ } := rfl
  rw [step_eq skipped (dropStale_of_no_key rfl rfl) shallow, readToken_of_isWordChar rest first]
  change (atLine line low outerLows tokens (name ++ ':' :: ' ' :: s)).readPlain.bind dropStale = _
  rw [readPlain_eq save scalar]
  rfl

/-- What may be a key is one if it is at most 1024 characters long. -/
theorem dropStale_afterName {line low : Nat} {outerLows : List Nat} {tokens : List Token} {name s : List Char}
    (short : name.length ≤ 1024) :
    (afterName line low outerLows tokens name s).dropStale =
      some (afterName line low outerLows tokens name s) := by
  simp [dropStale, freshKey, afterName, short]

/-- The mapping that a key outside all collections opens. -/
def opened (low : Nat) (outerLows : List Nat) (tokens : List Token) : List Nat × List Token :=
  if low = 0 then (low :: outerLows, .blockMapping :: tokens) else (outerLows, tokens)

/-- A `:` before a blank is read as such. -/
theorem readToken_colon {r : Reading} {s : List Char} (rest : r.cursor.rest = ':' :: ' ' :: s) :
    r.readToken = r.readValue := by
  obtain ⟨⟨p, _⟩, tokens, low, outerLows, keyPlace, outerKeys, keyOk⟩ := r
  obtain rfl : _ = ':' :: ' ' :: s := rest
  simp [readToken, startsBlank, isSpace, Cursor.atThree_eq_false (show ':' ≠ '-' by decide),
    Cursor.atThree_eq_false (show ':' ≠ '.' by decide)]

/-- A token put in behind some tokens. -/
theorem insert_eq {r : Reading} (later earlier : List Token) (split : r.tokens = later ++ earlier) (t : Token) :
    r.insert earlier.length t = { r with tokens := later ++ t :: earlier } := by
  simp [insert, split]

/-- A collection outside all others starts where it is not further in than they are. -/
theorem openBlock_eq {r : Reading} {column : Nat} (outside : r.flow = false) (left : r.low ≤ column)
    (number : Nat) (t : Token) :
    r.openBlock column number t =
      { r.insert number t with low := column + 1, outerLows := r.low :: r.outerLows } := by
  simp [openBlock, outside, left]

/-- The `:` makes a key of the word before it, and opens the mapping if it is the first key. -/
theorem readValue_afterName {line low : Nat} (shallow : low ≤ 1) (outerLows : List Nat) (tokens : List Token)
    (name s : List Char) :
    (afterName line low outerLows tokens name (':' :: ' ' :: s)).readValue =
      some (inLine line (name.length + 1) (opened low outerLows tokens).1
        (.value :: .scalar .plain (String.ofList name) :: .key :: (opened low outerLows tokens).2) (' ' :: s)) := by
  let scalar : Token := .scalar .plain (String.ofList name)
  let r := afterName line low outerLows tokens name (':' :: ' ' :: s)
  have key : r.insert tokens.length .key = { r with tokens := scalar :: .key :: tokens } :=
    insert_eq [scalar] tokens rfl .key
  have opening : { r with tokens := scalar :: .key :: tokens }.openBlock 0 tokens.length .blockMapping =
      { r with
        tokens := scalar :: .key :: (opened low outerLows tokens).2
        low := 1, outerLows := (opened low outerLows tokens).1 } := by
    obtain rfl | rfl : low = 0 ∨ low = 1 := by omega
    · rw [openBlock_eq rfl (Nat.le_refl 0), insert_eq [scalar, .key] tokens rfl]
      rfl
    · rfl
  change some { (((r.insert tokens.length .key).openBlock 0 tokens.length .blockMapping).emit .value).pass 1 with
    keyPlace := none, keyOk := false } = _
  rw [key, opening]
  rfl

theorem step_colon {line low : Nat} (shallow : low ≤ 1) (outerLows : List Nat) (tokens : List Token)
    {name : List Char} (short : name.length ≤ 1024) (s : List Char) :
    (afterName line low outerLows tokens name (':' :: ' ' :: s)).step =
      some (inLine line (name.length + 1) (opened low outerLows tokens).1
        (.value :: .scalar .plain (String.ofList name) :: .key :: (opened low outerLows tokens).2) (' ' :: s)) := by
  have skipped : Cursor.skip ⟨⟨line, name.length, name.length⟩, ':' :: ' ' :: s⟩ false false =
      (false, ⟨⟨line, name.length, name.length⟩, ':' :: ' ' :: s⟩) :=
    Cursor.skip_eq_self rfl rfl (by decide) (by decide) false
  have inside : low ≤ name.length + 1 := by omega
  rw [step_eq skipped (dropStale_afterName short) inside, readToken_colon rfl]
  change (afterName line low outerLows tokens name (':' :: ' ' :: s)).readValue.bind dropStale = _
  rw [readValue_afterName shallow, Option.bind_some, dropStale_of_no_key rfl rfl]

/-- A longer word is no key, and the text breaks off behind it: at once inside a mapping, where only a key can
stand, and outside at the `:`. -/
theorem step_long_name {name : List Char} (word : IsWord name) {line low : Nat} (shallow : low ≤ 1)
    (outerLows : List Nat) (tokens : List Token) (s : List Char) (long : 1024 < name.length) :
    let r := atLine line low outerLows tokens (name ++ ':' :: ' ' :: s)
    r.step = none ∨ ∃ next, r.step = some next ∧ next.tokens.head? ≠ some .textEnd ∧ next.step = none := by
  intro r
  let named := afterName line low outerLows tokens name (':' :: ' ' :: s)
  have read : r.step = named.dropStale := step_name word shallow outerLows tokens s
  have stale : ¬ name.length ≤ 1024 := Nat.not_le.2 long
  obtain rfl | rfl : low = 0 ∨ low = 1 := by omega
  · right
    have dropped : named.dropStale = some { named with keyPlace := none } := by
      simp [named, dropStale, freshKey, afterName, stale]
    have skipped : named.cursor.skip false false = (false, named.cursor) :=
      Cursor.skip_eq_self rfl rfl (by decide) (by decide) false
    let keyless : Reading := { named with keyPlace := none }
    have colon : keyless.step = keyless.readToken.bind dropStale :=
      step_eq skipped (dropStale_of_no_key rfl rfl) (Nat.zero_le _)
    refine ⟨keyless, read.trans dropped, by simp [keyless, named, afterName], ?_⟩
    rw [colon, readToken_colon rfl]
    rfl
  · left
    rw [read]
    simp [named, dropStale, freshKey, afterName, stale]

theorem readToken_bang {r : Reading} {s : List Char} (rest : r.cursor.rest = '!' :: s) :
    r.readToken = r.readTag := by
  obtain ⟨⟨p, _⟩, tokens, low, outerLows, keyPlace, outerKeys, keyOk⟩ := r
  obtain rfl : _ = '!' :: s := rest
  simp [readToken, Cursor.atThree_eq_false (show '!' ≠ '-' by decide),
    Cursor.atThree_eq_false (show '!' ≠ '.' by decide)]

/-- A tag, once the place of a key that it may be is saved. -/
theorem readTag_eq {r saved : Reading} (save : r.saveKey = some saved) {handle : String} {tag : Tag}
    {cursor : Cursor} (written : Tag.written saved.flow saved.cursor = some (handle, tag, cursor)) :
    r.readTag = some { saved.emit (.tag handle tag) with cursor, keyOk := false } := by
  simp [readTag, save, written]

/-- A step past the blank before a value: what the value makes of the place it starts at. -/
theorem step_inLine {line column : Nat} {outerLows : List Nat} {tokens : List Token} {c : Char} {s : List Char}
    (skipped : Cursor.skip ⟨⟨line, column + 1, column + 1⟩, c :: s⟩ false false =
      (false, ⟨⟨line, column + 1, column + 1⟩, c :: s⟩)) :
    (inLine line column outerLows tokens (' ' :: c :: s)).step =
      (inLine line (column + 1) outerLows tokens (c :: s)).readToken.bind dropStale := by
  have blank : Cursor.skip ⟨⟨line, column, column⟩, ' ' :: c :: s⟩ false false =
      (false, ⟨⟨line, column + 1, column + 1⟩, c :: s⟩) := skipped
  have inside : 1 ≤ column + 1 + 1 := by omega
  exact step_eq blank (dropStale_of_no_key rfl rfl) inside

/-- The tag `!fixed` is read by itself. -/
theorem step_tag (line column : Nat) (outerLows : List Nat) (tokens : List Token) (s : List Char) :
    (inLine line column outerLows tokens (' ' :: "!fixed".toList ++ ' ' :: s)).step =
      some (inLine line (column + 7) outerLows (.tag "!" ⟨"fixed", true⟩ :: tokens) (' ' :: s)) := by
  let r := inLine line (column + 1) outerLows tokens ("!fixed".toList ++ ' ' :: s)
  have save : r.saveKey = some r := rfl
  have tag : Tag.written false r.cursor =
      some ("!", ⟨"fixed", true⟩, ⟨⟨line, column + 7, column + 7⟩, ' ' :: s⟩) := rfl
  have skipped : Cursor.skip r.cursor false false = (false, r.cursor) :=
    Cursor.skip_eq_self rfl rfl (by decide) (by decide) false
  calc (inLine line column outerLows tokens (' ' :: "!fixed".toList ++ ' ' :: s)).step
    _ = r.readToken.bind dropStale := step_inLine skipped
    _ = r.readTag.bind dropStale := by rw [readToken_bang rfl]
    _ = _ := by rw [readTag_eq save tag]; rfl

/-- A word at the end of its line is read with the line break after it. -/
theorem step_word {w : List Char} (word : IsWord w) (line column : Nat) (outerLows : List Nat)
    (tokens : List Token) {s : List Char} (next : StartsLine s) :
    (inLine line column outerLows tokens (' ' :: (w ++ '\n' :: s))).step =
      some (atLine (line + 1) 1 outerLows (.scalar .plain (String.ofList w) :: tokens) s) := by
  let r := inLine line (column + 1) outerLows tokens (w ++ '\n' :: s)
  have save : r.saveKey = some r := rfl
  have scalar : plain r.flow r.low r.cursor = some ⟨String.ofList w, true, ⟨⟨line + 1, 0, 0⟩, s⟩⟩ := by
    change plainFrom false 1 [] {} ⟨line, column + 1, column + 1⟩ (w ++ '\n' :: s) = _
    rw [plainFrom_word word.2, plainFrom_lineEnd Nat.one_pos _ _ next]
    simp [Place.along]
  obtain ⟨c, w', rfl⟩ := List.exists_cons_of_ne_nil word.1
  have first : isWordChar c = true := word.2 c List.mem_cons_self
  rw [List.cons_append, step_inLine (Cursor.skip_of_isWordChar first false), readToken_of_isWordChar rfl first]
  change r.readPlain.bind dropStale = _
  rw [readPlain_eq save scalar]
  rfl

end Reading

end CodeOutline.Yaml
