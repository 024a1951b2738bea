import Mathlib.Data.List.TakeWhile
import Mathlib.Tactic.IntervalCases
import CodeOutline.Line.Literal
import CodeOutline.Line.Scan
import CodeOutline.Text.Offset

/-!
# Proofs.Ink — what the recognisers of a line see of the blanks around it

Two texts have the same ink (`SameInk`) when they differ at most in the blanks they end with. What finds the
same in them is `Steady`, and each recogniser hands this on from what comes after it. A recogniser may well
stop at a different place in the two texts: after a keyword, one blank is enough to go on and none is not.
But where the texts differ nothing else is left, and from there no rule gets any further. So a recogniser
that fails counts as one that goes on with the empty text (`bind_eq_of_nothing`), and then both texts lead
to texts with the same ink again (`sameInk_someBlanks`). Modifiers are the one place where even the words
read so far may differ: `get` at the end of a line is a modifier if a blank follows, and a name otherwise
(`AfterModifiers`).

Blanks before a text move the leftmost place of a keyword and nothing else (`leftmost_padded`), and neither
they nor those at the end change what is a literal or a comment (`covered_blank_append`,
`covered_append_blank`).
-/

namespace CodeOutline.Line

set_option autoImplicit false

open CodeOutline.Text

/-! ## Blank characters -/

def blanks : List Char := [' ', '\t', '\n', '\u000b', '\u000c', '\r'] ++ wideBlanks

theorem mem_blanks_of_isBlank {c : Char} (blank : isBlank c = true) : c ∈ blanks := by
  simp only [isBlank, Bool.or_eq_true, Bool.and_eq_true, beq_iff_eq, decide_eq_true_eq] at blank
  rcases blank with (rfl | ⟨low, high⟩) | wide
  · decide
  · have lower : 9 ≤ c.toNat := low
    have upper : c.toNat ≤ 13 := high
    rw [← Char.ofNat_toNat c]
    generalize c.toNat = code at lower upper
    interval_cases code <;> decide
  · exact List.mem_append_right _ (List.contains_iff_mem.1 wide)

/-- A class of characters without any of the blanks. -/
theorem eq_false_of_isBlank {p : Char → Bool} (none_blank : blanks.all (!p ·) = true) {c : Char}
    (blank : isBlank c = true) : p c = false := by
  simpa using List.all_eq_true.1 none_blank c (mem_blanks_of_isBlank blank)

theorem isWord_of_isBlank {c : Char} : isBlank c = true → isWord c = false :=
  eq_false_of_isBlank (by decide +kernel)

theorem isNameStart_of_isBlank {c : Char} : isBlank c = true → isNameStart c = false :=
  eq_false_of_isBlank (by decide)

theorem isQuote_of_isBlank {c : Char} : isBlank c = true → isQuote c = false :=
  eq_false_of_isBlank (by decide)

/-- A blank is no character that is not blank. -/
theorem ne_of_isBlank {c d : Char} (blank : isBlank c = true) (ink : isBlank d = false) : c ≠ d := by
  rintro rfl
  simp [blank] at ink

theorem isNameRest_of_isBlank {c : Char} (blank : isBlank c = true) : isNameRest c = false := by
  have dollar : c ≠ '$' := ne_of_isBlank blank (by decide)
  simp [isNameRest, isWord_of_isBlank blank, dollar]

def Blank (s : List Char) : Prop := ∀ c ∈ s, isBlank c = true

instance (s : List Char) : Decidable (Blank s) := decidable_of_iff (s.all isBlank = true) List.all_eq_true

theorem Blank.nil : Blank [] := nofun

theorem Blank.head {c : Char} {s : List Char} (blank : Blank (c :: s)) : isBlank c = true :=
  blank c List.mem_cons_self

theorem Blank.tail {c : Char} {s : List Char} (blank : Blank (c :: s)) : Blank s :=
  fun d member => blank d (List.mem_cons_of_mem _ member)

theorem Blank.dropWhile {s : List Char} (blank : Blank s) (p : Char → Bool) : Blank (s.dropWhile p) :=
  fun c member => blank c ((List.dropWhile_sublist p).subset member)

theorem Blank.dropWhile_eq_nil {s : List Char} (blank : Blank s) {p : Char → Bool}
    (passes : ∀ c, isBlank c = true → p c = true) : s.dropWhile p = [] :=
  List.dropWhile_eq_nil_iff.2 fun c member => passes c (blank c member)

theorem Blank.takeWhile_eq_nil {s : List Char} (blank : Blank s) {p : Char → Bool}
    (stops : ∀ c, isBlank c = true → p c = false) : s.takeWhile p = [] := by
  cases s with
  | nil => rfl
  | cons c s => simp [stops c blank.head]

theorem Blank.count_eq_zero {s : List Char} (blank : Blank s) {c : Char} (ink : isBlank c = false) :
    s.count c = 0 :=
  List.count_eq_zero.2 fun member => by simp [blank c member] at ink

/-! ## Texts with the same ink -/

/-- Texts that differ at most in the blanks they end with. -/
inductive SameInk : List Char → List Char → Prop where
  | blank {s t : List Char} (left : Blank s) (right : Blank t) : SameInk s t
  | cons (c : Char) {s t : List Char} (rest : SameInk s t) : SameInk (c :: s) (c :: t)

namespace SameInk

variable {s t : List Char}

theorem refl (s : List Char) : SameInk s s := by
  induction s with
  | nil => exact .blank .nil .nil
  | cons c s ih => exact .cons c ih

/-- Blanks may be put at the end. -/
theorem append (s : List Char) {t : List Char} (blank : Blank t) : SameInk s (s ++ t) := by
  induction s with
  | nil => exact .blank .nil blank
  | cons c s ih => exact .cons c ih

theorem dropWhile (same : SameInk s t) (p : Char → Bool) :
    SameInk (s.dropWhile p) (t.dropWhile p) := by
  induction same with
  | blank left right => exact .blank (left.dropWhile p) (right.dropWhile p)
  | cons c rest ih =>
      simp only [List.dropWhile_cons]
      split
      · exact ih
      · exact .cons c rest

theorem takeWhile_eq (same : SameInk s t) {p : Char → Bool}
    (stops : ∀ c, isBlank c = true → p c = false) : s.takeWhile p = t.takeWhile p := by
  induction same with
  | blank left right => rw [left.takeWhile_eq_nil stops, right.takeWhile_eq_nil stops]
  | cons c _ ih => simp only [List.takeWhile_cons, ih]

/-- Past a run that includes blanks nothing is left of either text, or both go on with the same character
after the same run. -/
theorem dropWhile_cases (same : SameInk s t) {p : Char → Bool}
    (passes : ∀ c, isBlank c = true → p c = true) :
    (s.dropWhile p = [] ∧ t.dropWhile p = []) ∨
      ∃ c s' t', s.dropWhile p = c :: s' ∧ t.dropWhile p = c :: t' ∧ SameInk s' t' ∧
        s.takeWhile p = t.takeWhile p := by
  induction same with
  | blank left right => exact .inl ⟨left.dropWhile_eq_nil passes, right.dropWhile_eq_nil passes⟩
  | @cons c s t rest ih =>
      by_cases within : p c = true
      · simpa [within] using ih
      · exact .inr ⟨c, s, t, by simp [within], by simp [within], rest, by simp [within]⟩

theorem skipBlanks (same : SameInk s t) : SameInk (skipBlanks s) (skipBlanks t) :=
  same.dropWhile isBlank

theorem skipBlanks_cases (same : SameInk s t) :
    (Text.skipBlanks s = [] ∧ Text.skipBlanks t = []) ∨
      ∃ c s' t', Text.skipBlanks s = c :: s' ∧ Text.skipBlanks t = c :: t' ∧ SameInk s' t' := by
  obtain none_left | ⟨c, s', t', left, right, rest, -⟩ := same.dropWhile_cases fun _ blank => blank
  · exact .inl none_left
  · exact .inr ⟨c, s', t', left, right, rest⟩

theorem takeWhile_isBlank_eq (same : SameInk s t) (ink : ¬ Blank s) :
    s.takeWhile isBlank = t.takeWhile isBlank := by
  induction same with
  | blank left => exact absurd left ink
  | @cons c s t rest ih =>
      by_cases blank : isBlank c = true
      · have further : ¬ Blank s := fun all => ink fun d member => by
          rcases List.mem_cons.1 member with rfl | member
          · exact blank
          · exact all d member
        simp [blank, ih further]
      · simp [blank]

end SameInk

/-! ## Recognisers -/

/-- The same is found in texts with the same ink. -/
def Steady {α : Type} (f : List Char → α) : Prop := ∀ ⦃s t⦄, SameInk s t → f s = f t

/-- A text that starts with no ink: it is empty, or its first character is blank. -/
def Faint (s : List Char) : Prop := ∀ c ∈ s.head?, isBlank c = true

theorem Faint.head {c : Char} {s : List Char} (faint : Faint (c :: s)) : isBlank c = true :=
  faint c rfl

theorem Faint.of_head {c : Char} {s : List Char} (blank : isBlank c = true) : Faint (c :: s) := by
  simpa [Faint] using blank

theorem Blank.faint {s : List Char} (blank : Blank s) : Faint s :=
  fun c first => blank c (List.mem_of_mem_head? first)

def Inked (s : List Char) : Prop := ∀ c ∈ s, isBlank c = false

instance (s : List Char) : Decidable (Inked s) :=
  decidable_of_iff (s.all (!isBlank ·) = true) (by simp [Inked])

theorem Inked.head {c : Char} {s : List Char} (inked : Inked (c :: s)) : isBlank c = false :=
  inked c List.mem_cons_self

theorem Inked.tail {c : Char} {s : List Char} (inked : Inked (c :: s)) : Inked s :=
  fun d member => inked d (List.mem_cons_of_mem _ member)

def Solid (w : String) : Prop := w.toList ≠ [] ∧ Inked w.toList

instance (w : String) : Decidable (Solid w) := inferInstanceAs (Decidable (_ ∧ _))

section Recognisers

variable {α : Type} {s t : List Char} {k : List Char → Option α}

/-- Where a text that starts with no ink gives nothing, only texts with the same first character are left. -/
theorem Steady.of_first (silent : ∀ s, Faint s → k s = none)
    (first : ∀ c s t, SameInk s t → k (c :: s) = k (c :: t)) : Steady k := by
  intro s t same
  cases same with
  | blank left right => rw [silent s left.faint, silent t right.faint]
  | cons c rest => exact first c _ _ rest

/-- What finds nothing in the empty text may as well be given it after a failure. -/
theorem bind_eq_of_nothing (nothing : k [] = none) (o : Option (List Char)) :
    o.bind k = k (o.getD []) := by
  cases o with
  | none => exact nothing.symm
  | some s => rfl

theorem steady_skipBlanks (steady : Steady k) : Steady fun s => k (skipBlanks s) :=
  fun _ _ same => steady same.skipBlanks

theorem Blank.someBlanks_getD (blank : Blank s) : (someBlanks s).getD [] = [] := by
  cases s with
  | nil => rfl
  | cons c s =>
      simp only [someBlanks, blank.head, if_true, Option.getD_some]
      exact blank.tail.dropWhile_eq_nil fun _ blank => blank

theorem sameInk_someBlanks (same : SameInk s t) :
    SameInk ((someBlanks s).getD []) ((someBlanks t).getD []) := by
  cases same with
  | blank left right =>
      rw [left.someBlanks_getD, right.someBlanks_getD]
      exact .refl []
  | cons c rest =>
      simp only [someBlanks]
      split
      · exact rest.skipBlanks
      · exact .refl []

theorem steady_someBlanks (steady : Steady k) (nothing : k [] = none) :
    Steady fun s => (someBlanks s).bind k := by
  intro s t same
  simp only [bind_eq_of_nothing nothing]
  exact steady (sameInk_someBlanks same)

theorem steady_identifier {k : List Char → List Char → Option α} (steady : ∀ name, Steady (k name)) :
    Steady fun s => (identifier s).bind fun r => k r.1 r.2 := by
  refine .of_first (fun s faint => ?_) fun c s t same => ?_
  · cases s with
    | nil => rfl
    | cons c s => simp [identifier, isNameStart_of_isBlank faint.head]
  · have same_name : s.takeWhile isNameRest = t.takeWhile isNameRest :=
      same.takeWhile_eq fun _ => isNameRest_of_isBlank
    simp only [identifier]
    split
    · simp only [Option.bind_some, same_name]
      exact steady _ (same.dropWhile isNameRest)
    · rfl

theorem steady_afterWord {w : List Char} (inked : Inked w) (steady : Steady k) :
    Steady fun s => (afterWord w s).bind k := by
  induction w with
  | nil => exact steady
  | cons w ws ih =>
      refine .of_first (fun s faint => ?_) fun c s t same => ?_
      · cases s with
        | nil => rfl
        | cons c s => simp [afterWord, (ne_of_isBlank faint.head inked.head).symm]
      · simp only [afterWord]
        split
        · exact ih inked.tail same
        · rfl

/-- A text that starts with one of some words does not start with a blank. -/
theorem afterAny_eq_none {words : List String} (solid : ∀ w ∈ words, Solid w) (faint : Faint s) :
    afterAny words k s = none := by
  refine List.findSome?_eq_none_iff.2 fun w member => ?_
  obtain ⟨some_char, inked⟩ := solid w member
  obtain ⟨c, r, spelled⟩ := List.exists_cons_of_ne_nil some_char
  rw [spelled] at inked ⊢
  cases s with
  | nil => rfl
  | cons d s =>
      have differs : c ≠ d := (ne_of_isBlank faint.head inked.head).symm
      simp [afterWord, differs]

def firstWord (s : List Char) : List Char := s.takeWhile (!isBlank ·)

def afterFirstWord (s : List Char) : List Char := s.dropWhile (!isBlank ·)

theorem firstWord_append_afterFirstWord (s : List Char) : firstWord s ++ afterFirstWord s = s :=
  List.takeWhile_append_dropWhile

/-- A word with blanks after it is the first word. -/
theorem afterWord_bind_someBlanks {w : List Char} (inked : Inked w) :
    (afterWord w s).bind someBlanks = if w = firstWord s then someBlanks (afterFirstWord s) else none := by
  induction w generalizing s with
  | nil =>
      cases s with
      | nil => rfl
      | cons c s =>
          by_cases blank : isBlank c = true <;>
            simp [afterWord, firstWord, afterFirstWord, someBlanks, blank]
  | cons w ws ih =>
      have ink : isBlank w = false := inked.head
      cases s with
      | nil => simp [afterWord, firstWord]
      | cons c s =>
          by_cases first : w = c
          · subst first
            have rest := ih (s := s) inked.tail
            have word : firstWord (w :: s) = w :: firstWord s := by simp [firstWord, ink]
            have behind : afterFirstWord (w :: s) = afterFirstWord s := by simp [afterFirstWord, ink]
            simp only [afterWord, if_true, rest, word, behind, List.cons.injEq, true_and]
          · by_cases blank : isBlank c = true <;> simp [afterWord, firstWord, first, blank]

/-- Of some words with blanks after them, the one that a text starts with is its first word. -/
theorem afterAny_someBlanks {words : List String} (solid : ∀ w ∈ words, Solid w) (s : List Char) :
    afterAny words someBlanks s =
      (words.find? (·.toList = firstWord s)).bind fun w =>
        (someBlanks (afterFirstWord s)).map (w, ·) := by
  unfold afterAny
  induction words with
  | nil => rfl
  | cons w words ih =>
      have later := ih fun w' member => solid w' (List.mem_cons_of_mem _ member)
      rw [List.findSome?_cons, later, afterWord_bind_someBlanks (solid w List.mem_cons_self).2,
        List.find?_cons]
      by_cases first : w.toList = firstWord s
      · cases someBlanks (afterFirstWord s) with
        | none => cases words.find? (·.toList = firstWord s) <;> simp [first]
        | some r => simp [first]
      · simp [first]

/-- Texts with the same ink have the same first word, and what stands behind it has the same ink. -/
theorem SameInk.split (same : SameInk s t) :
    firstWord s = firstWord t ∧ SameInk (afterFirstWord s) (afterFirstWord t) :=
  ⟨same.takeWhile_eq fun c blank => by simp [blank], same.dropWhile (!isBlank ·)⟩

theorem steady_keyword {words : List String} (solid : ∀ w ∈ words, Solid w) (steady : Steady k)
    (nothing : k [] = none) : Steady fun s => (afterAny words someBlanks s).bind fun r => k r.2 := by
  intro s t same
  obtain ⟨word, behind⟩ := same.split
  simp only [afterAny_someBlanks solid, word]
  cases words.find? (·.toList = firstWord t) with
  | none => rfl
  | some w =>
      have rest := steady_someBlanks steady nothing behind
      simpa [Option.bind_map, Function.comp_def] using rest

section Modifiers

variable {words : List String} {k : Option String → List Char → Option α}

/-- A text whose first word is none of the modifiers has none. -/
theorem modifiersUpTo_eq_self (solid : ∀ w ∈ words, Solid w)
    (other : words.find? (·.toList = firstWord s) = none) (n : Nat) (last : Option String) :
    modifiersUpTo words n last s = (last, s) := by
  cases n with
  | zero => rfl
  | succ n => simp [modifiersUpTo, afterAny_someBlanks solid, other]

/-- A text whose first word is a modifier goes on after the blanks that follow it. -/
theorem modifiersUpTo_of_modifier (solid : ∀ w ∈ words, Solid w) {w : String}
    (found : words.find? (·.toList = firstWord s) = some w) (n : Nat) (last : Option String) :
    modifiersUpTo words (n + 1) last s =
      ((someBlanks (afterFirstWord s)).map (modifiersUpTo words n (some w))).getD (last, s) := by
  rw [modifiersUpTo, afterAny_someBlanks solid, found]
  cases someBlanks (afterFirstWord s) <;> rfl

/-- What goes on after modifiers: it does not mind the blanks at the end of a text, and it finds nothing where
no more than a modifier is left. -/
structure AfterModifiers (words : List String) (k : Option String → List Char → Option α) : Prop where
  solid : ∀ w ∈ words, Solid w
  steady : ∀ last, Steady (k last)
  nothing : ∀ last, k last [] = none
  word : ∀ w ∈ words, ∀ last, k last w.toList = none

/-- Where a text is one modifier and blanks, nothing is found after its modifiers: what is left is the
word, if no blank follows it, and nothing otherwise. -/
theorem AfterModifiers.spent (after : AfterModifiers words k) {w : String}
    (found : words.find? (·.toList = firstWord s) = some w) (blank : Blank (afterFirstWord s)) (n : Nat)
    (last : Option String) :
    k (modifiersUpTo words n last s).1 (modifiersUpTo words n last s).2 = none := by
  have first : w.toList = firstWord s := by simpa using List.find?_some found
  have stays : k last s = none := by
    have same := SameInk.append (firstWord s) blank
    rw [firstWord_append_afterFirstWord] at same
    rw [← after.steady last same, ← first]
    exact after.word w (List.mem_of_find?_eq_some found) last
  cases n with
  | zero => exact stays
  | succ n =>
      rw [modifiersUpTo_of_modifier after.solid found]
      cases behind : someBlanks (afterFirstWord s) with
      | none => exact stays
      | some r =>
          obtain rfl : r = [] := by simpa [behind] using blank.someBlanks_getD
          have no_more : words.find? (·.toList = firstWord []) = none :=
            List.find?_eq_none.2 fun w member => by simpa [firstWord] using (after.solid w member).1
          simp [modifiersUpTo_eq_self after.solid no_more, after.nothing]

theorem length_skipBlanks_lt {c : Char} {r : List Char} (behind : afterFirstWord s = c :: r) :
    (skipBlanks r).length < s.length := by
  have cut : (c :: r).length ≤ s.length := behind ▸ (List.dropWhile_sublist _).length_le
  have skipped : (skipBlanks r).length ≤ r.length := (List.dropWhile_sublist _).length_le
  rw [List.length_cons] at cut
  omega

theorem AfterModifiers.upTo_eq (after : AfterModifiers words k) {n m : Nat} (fits : s.length ≤ n)
    (fits' : t.length ≤ m) (last : Option String) (same : SameInk s t) :
    k (modifiersUpTo words n last s).1 (modifiersUpTo words n last s).2 =
      k (modifiersUpTo words m last t).1 (modifiersUpTo words m last t).2 := by
  induction n using Nat.strong_induction_on generalizing m s t last with
  | _ n ih =>
  obtain ⟨first, behind⟩ := same.split
  cases found : words.find? (·.toList = firstWord s) with
  | none =>
      rw [modifiersUpTo_eq_self after.solid found, modifiersUpTo_eq_self after.solid (first ▸ found)]
      exact after.steady last same
  | some w =>
      have found' := first ▸ found
      generalize rest : afterFirstWord s = r, rest' : afterFirstWord t = r' at behind
      cases behind with
      | blank left right => rw [after.spent found (rest ▸ left), after.spent found' (rest' ▸ right)]
      | @cons c r r' further =>
          have blank : isBlank c = true := by
            have stopped := List.head?_dropWhile_not (!isBlank ·) s
            rw [show s.dropWhile (!isBlank ·) = c :: r from rest] at stopped
            simpa using stopped
          have shorter := length_skipBlanks_lt rest
          have shorter' := length_skipBlanks_lt rest'
          obtain ⟨n, rfl⟩ : ∃ n', n = n' + 1 := ⟨n - 1, by omega⟩
          obtain ⟨m, rfl⟩ : ∃ m', m = m' + 1 := ⟨m - 1, by omega⟩
          rw [modifiersUpTo_of_modifier after.solid found, modifiersUpTo_of_modifier after.solid found',
            rest, rest']
          simp only [someBlanks, blank, if_true, Option.map_some, Option.getD_some]
          exact ih n (Nat.lt_succ_self n) (by omega) (by omega) (some w) further.skipBlanks

theorem AfterModifiers.steady_modifiers (after : AfterModifiers words k) :
    Steady fun s => k (modifiers words s).1 (modifiers words s).2 :=
  fun _ _ same => after.upTo_eq le_rfl le_rfl none same

end Modifiers

/-- What starts with a keyword: it finds the same in texts with the same ink, and nothing where a text starts
with no ink. -/
structure Keyed (here : List Char → Option α) : Prop where
  steady : Steady here
  silent : ∀ s, Faint s → here s = none

theorem keyed_keyword {words : List String} (solid : ∀ w ∈ words, Solid w) (steady : Steady k)
    (nothing : k [] = none) : Keyed fun s => (afterAny words someBlanks s).bind fun r => k r.2 where
  steady := steady_keyword solid steady nothing
  silent _ faint := by rw [afterAny_eq_none solid faint, Option.bind_none]

theorem steady_closeAngle (steady : Steady k) : Steady (closeAngle k) := by
  have of_blank : ∀ {r : List Char}, Blank r → closeAngle k r = none := by
    intro r blank
    induction r with
    | nil => rfl
    | cons c r ih =>
        have angle : c ≠ '>' := ne_of_isBlank blank.head (by decide)
        simp [closeAngle, angle, ih blank.tail]
  intro s t same
  induction same with
  | blank left right => rw [of_blank left, of_blank right]
  | cons c rest ih => simp only [closeAngle, ih, steady rest]

theorem steady_afterTypeParameters (steady : Steady k) : Steady (afterTypeParameters k) := by
  intro s t same
  unfold afterTypeParameters
  obtain ⟨left, right⟩ | ⟨c, s', t', left, right, rest⟩ := same.skipBlanks_cases
  · simp [left, right]
  · by_cases angle : c = '<'
    · subst angle
      simp only [left, right, steady_closeAngle (steady_skipBlanks steady) rest]
    · simp only [left, right]
      split <;> split <;> simp_all [steady (SameInk.cons c rest)]

end Recognisers

/-! ## The leftmost place -/

section Leftmost

variable {α β : Type} {here : List Char → Option α} {s t : List Char}

theorem leftmost_map (g : α → β) (here : List Char → Option α) (fresh : Bool) (s : List Char) :
    leftmost (fun s => (here s).map g) fresh s = (leftmost here fresh s).map fun r => (r.1, g r.2) := by
  induction s generalizing fresh with
  | nil => rfl
  | cons c s ih =>
      cases fresh with
      | false => simp [leftmost, ih, Function.comp_def]
      | true => cases found : here (c :: s) <;> simp [leftmost, found, ih, Function.comp_def]

/-- What precedes the leftmost place is a first part of the text. -/
theorem leftmost_spec {fresh : Bool} {before : List Char} {a : α}
    (found : leftmost here fresh s = some (before, a)) : ∃ rest, s = before ++ rest := by
  induction s generalizing fresh before with
  | nil => simp [leftmost] at found
  | cons c s ih =>
      simp only [leftmost] at found
      split at found
      · obtain ⟨rfl, rfl⟩ := found
        exact ⟨c :: s, rfl⟩
      · obtain ⟨⟨before', a'⟩, later, same⟩ := Option.map_eq_some_iff.1 found
        obtain ⟨rfl, rfl⟩ := same
        obtain ⟨rest, rfl⟩ := ih later
        exact ⟨rest, rfl⟩

theorem steady_leftmost (keyed : Keyed here) (fresh : Bool) : Steady (leftmost here fresh) := by
  have of_blank : ∀ {r : List Char} (fresh : Bool), Blank r → leftmost here fresh r = none := by
    intro r fresh blank
    induction r generalizing fresh with
    | nil => rfl
    | cons c r ih =>
        have nothing : here (c :: r) = none := keyed.silent _ (.of_head blank.head)
        simp [leftmost, nothing, ih _ blank.tail]
  intro s t same
  induction same generalizing fresh with
  | blank left right => rw [of_blank fresh left, of_blank fresh right]
  | cons c rest ih => simp only [leftmost, keyed.steady (.cons c rest), ih]

/-- Blanks around a text leave the leftmost place where it is in the text. -/
theorem leftmost_padded (keyed : Keyed here) {left right : List Char} (blankLeft : Blank left)
    (blankRight : Blank right) :
    leftmost here true (left ++ s ++ right) = (leftmost here true s).map fun r => (left ++ r.1, r.2) := by
  induction left with
  | nil => simpa using (steady_leftmost keyed true (.append s blankRight)).symm
  | cons c left ih =>
      have nothing : here (c :: (left ++ s ++ right)) = none := keyed.silent _ (.of_head blankLeft.head)
      simp only [List.cons_append, leftmost, nothing, isWord_of_isBlank blankLeft.head, if_true]
      rw [Bool.not_false, ih blankLeft.tail, Option.map_map]
      rfl

end Leftmost

/-! ## Literals and comments -/

def Region.Proper : Region → Prop
  | .quoted q => isQuote q = true
  | _ => True

section Literals

variable {s pre post : List Char}

/-- Blanks end no literal and no comment, and open none. -/
theorem covered_blank {region : Region} (proper : region.Proper) (blank : Blank s) (n : Nat) :
    covered region n s = decide (region ≠ .code) := by
  induction s generalizing n with
  | nil => cases n <;> rfl
  | cons c s ih =>
      cases n with
      | zero => rfl
      | succ n =>
          have slash : c ≠ '/' := ne_of_isBlank blank.head (by decide)
          have star : c ≠ '*' := ne_of_isBlank blank.head (by decide)
          have escape : c ≠ '\\' := ne_of_isBlank blank.head (by decide)
          have no_quote := isQuote_of_isBlank blank.head
          have later := ih blank.tail (n + 1 - c.utf8Size)
          cases region with
          | code => simpa [covered, slash, no_quote] using later
          | comment => simpa [covered, star] using later
          | quoted q =>
              have other : c ≠ q := by
                rintro rfl
                simp [Region.Proper, no_quote] at proper
              simpa [covered, escape, other] using later

/-- A character that is not blank and that blanks are put after stood there before. -/
theorem starts_of_append (blank : Blank post) {d : Char} {r : List Char} (ink : isBlank d = false)
    (starts : s ++ post = d :: r) : ∃ r', s = d :: r' := by
  cases s with
  | nil =>
      rw [List.nil_append] at starts
      subst starts
      simp [blank.head] at ink
  | cons c s =>
      obtain ⟨rfl, -⟩ := List.cons.inj starts
      exact ⟨s, rfl⟩

/-- No literal or comment reaches further or less far for the blanks at the end of the line. A backslash there
takes the first of the blanks with it, and nothing comes of that. -/
theorem covered_append_blank {region : Region} (proper : region.Proper) (blank : Blank post) (n : Nat) :
    covered region n (s ++ post) = covered region n s := by
  fun_induction covered region n s with
  | case1 => simp [covered]
  | case2 region n => exact covered_blank proper blank (n + 1)
  | case3 => rfl
  | case4 left s ih => exact ih trivial
  | case5 left c s no_line no_block ih =>
      have proper' : (if isQuote c = true then Region.quoted c else Region.code).Proper := by
        split
        · assumption
        · trivial
      rw [List.cons_append, covered, ih proper']
      · intro r slash starts
        obtain ⟨r', rfl⟩ := starts_of_append blank (by decide) starts
        exact no_line r' slash rfl
      · intro r slash starts
        obtain ⟨r', rfl⟩ := starts_of_append blank (by decide) starts
        exact no_block r' slash rfl
  | case6 q left d s ih => exact ih proper
  | case7 q left c s no_escape ih =>
      have proper' : (if c = q then Region.code else Region.quoted q).Proper := by
        split
        · trivial
        · exact proper
      by_cases escape : c = '\\'
      · subst escape
        obtain rfl : s = [] := by
          cases s with
          | nil => rfl
          | cons d s => exact absurd rfl (no_escape d s rfl)
        have no_quote : '\\' ≠ q := by
          rintro rfl
          simp [Region.Proper, isQuote] at proper
        have quoted : covered (.quoted q) (left + 1 - '\\'.utf8Size) [] = true := by
          simp [covered_blank proper .nil]
        cases post with
        | nil => simp [covered, no_quote]
        | cons d post => simp [covered, no_quote, quoted, covered_blank proper blank.tail]
      · rw [List.cons_append, covered, ih proper']
        exact fun d r same => absurd same escape
  | case8 left s ih => exact ih trivial
  | case9 left c s no_end ih =>
      rw [List.cons_append, covered, ih trivial]
      intro r star starts
      obtain ⟨r', rfl⟩ := starts_of_append blank (by decide) starts
      exact no_end r' star rfl

theorem covered_blank_append (blank : Blank pre) (n : Nat) :
    covered .code (byteSize pre + n) (pre ++ s) = covered .code n s := by
  induction pre with
  | nil => simp [byteSize]
  | cons c pre ih =>
      have slash : c ≠ '/' := ne_of_isBlank blank.head (by decide)
      have size : byteSize (c :: pre) + n = (c.utf8Size - 1 + (byteSize pre + n)) + 1 := by
        have positive := c.utf8Size_pos
        simp only [byteSize]
        omega
      have less : c.utf8Size - 1 + (byteSize pre + n) + 1 - c.utf8Size = byteSize pre + n := by
        have positive := c.utf8Size_pos
        omega
      rw [size, List.cons_append]
      simp [covered, slash, isQuote_of_isBlank blank.head, less, ih blank.tail]

end Literals

end CodeOutline.Line
