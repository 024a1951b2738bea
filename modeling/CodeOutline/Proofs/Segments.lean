import Mathlib.Data.List.Basic
import CodeOutline.Proofs.Ink

/-!
# Proofs.Segments — a line read in segments, against the reading by character

A segment is a literal or a comment: it has a place where it starts and, if it ends on the line, a place where
its terminator starts. `Segmented` cuts a line into segments and the code between them from left to right, and
says of each segment as a whole what it is made of (`Closes`): a literal is ended by the first quote of its sort
that no backslash takes, a block comment by the first `*/` after its opening. A segment that nothing ends goes on
to the end of the line, and a `//` always does.

The reading by character keeps a region and one character in sight, and stops where it is asked about. One lemma
for each sort of segment says what that gives at every offset (`covered_closed`, `covered_unclosed`), also in the
middle of a character or of a terminator, and past the end.
-/

namespace CodeOutline.Line

set_option autoImplicit false

open CodeOutline.Text

/-- A literal or a comment of a line: the byte offset it starts at, and the one its terminator starts at. -/
structure Segment where
  start : Nat
  stop : Option Nat

/-- The offset is after the start of the segment, and not after the start of its terminator. -/
def Segment.Covers (g : Segment) (offset : Nat) : Prop :=
  g.start < offset ∧ ∀ stop, g.stop = some stop → offset ≤ stop

/-- What stands in a literal before its closing quote: no quote of its sort but those a backslash takes. -/
inductive LiteralBody (quote : Char) : List Char → Prop where
  | nil : LiteralBody quote []
  | plain {c : Char} {s : List Char} (other : c ≠ quote) (no_escape : c ≠ '\\') (rest : LiteralBody quote s) :
      LiteralBody quote (c :: s)
  | escape {c : Char} {s : List Char} (rest : LiteralBody quote s) : LiteralBody quote ('\\' :: c :: s)

/-- What stands in a block comment before its end. -/
def CommentBody (s : List Char) : Prop := ¬ ['*', '/'] <:+: s

/-- A segment starts with this text. -/
inductive Opens : List Char → Prop where
  | literal {quote : Char} (sort : isQuote quote = true) (s : List Char) : Opens (quote :: s)
  | comment (s : List Char) : Opens ('/' :: '*' :: s)
  | lineComment (s : List Char) : Opens ('/' :: '/' :: s)

/-- A segment up to its terminator, and the terminator. -/
inductive Closes : List Char → List Char → Prop where
  | literal {quote : Char} {body : List Char} (sort : isQuote quote = true) (inside : LiteralBody quote body) :
      Closes (quote :: body) [quote]
  | comment {body : List Char} (inside : CommentBody body) : Closes ('/' :: '*' :: body) ['*', '/']

/-- A segment starts with this text, and nothing in it ends the segment. -/
structure Unclosed (s : List Char) : Prop where
  opens : Opens s
  endless : ∀ front mark rest, Closes front mark → s ≠ front ++ (mark ++ rest)

/-- The segments of a text whose first character is at a byte offset, from left to right. -/
inductive Segmented : Nat → List Char → List Segment → Prop where
  | done (start : Nat) : Segmented start [] []
  | code {start : Nat} {c : Char} {s : List Char} {segments : List Segment} (plain : ¬ Opens (c :: s))
      (rest : Segmented (start + c.utf8Size) s segments) : Segmented start (c :: s) segments
  | closed {start : Nat} {front mark s : List Char} {segments : List Segment} (closes : Closes front mark)
      (rest : Segmented (start + (byteSize front + byteSize mark)) s segments) :
      Segmented start (front ++ (mark ++ s)) (⟨start, some (start + byteSize front)⟩ :: segments)
  | unclosed {start : Nat} {s : List Char} (unclosed : Unclosed s) : Segmented start s [⟨start, none⟩]

/-- Every text has its segments: each is passed as a whole, and what is left is shorter. -/
theorem exists_segmented (start : Nat) (s : List Char) : ∃ segments, Segmented start s segments := by
  induction size : s.length using Nat.strongRecOn generalizing start s with
  | ind size ih =>
      subst size
      by_cases opens : Opens s
      · by_cases ended : ∃ front mark rest, Closes front mark ∧ s = front ++ (mark ++ rest)
        · obtain ⟨front, mark, rest, closes, rfl⟩ := ended
          have shorter : rest.length < (front ++ (mark ++ rest)).length := by
            cases closes <;> simp <;> omega
          obtain ⟨segments, later⟩ := ih _ shorter (start + (byteSize front + byteSize mark)) rest rfl
          exact ⟨_, .closed closes later⟩
        · exact ⟨_, .unclosed ⟨opens, fun front mark rest closes same => ended ⟨front, mark, rest, closes, same⟩⟩⟩
      · cases s with
        | nil => exact ⟨[], .done start⟩
        | cons c s =>
            obtain ⟨segments, later⟩ := ih s.length (Nat.lt_succ_self _) (start + c.utf8Size) s rfl
            exact ⟨segments, .code opens later⟩

/-! ## Reading by character -/

theorem ne_backslash_of_isQuote {c : Char} (sort : isQuote c = true) : c ≠ '\\' := by
  rintro rfl
  cases sort

theorem ne_slash_of_isQuote {c : Char} (sort : isQuote c = true) : c ≠ '/' := by
  rintro rfl
  cases sort

/-- An offset that is reached is where the region that was left open says. -/
theorem covered_zero (region : Region) (s : List Char) :
    covered region 0 s = decide (region ≠ .code) := by
  cases s <;> cases region <;> rfl

/-- A character that opens nothing is passed. -/
theorem covered_code {c : Char} {s : List Char} (plain : ¬ Opens (c :: s)) (left : Nat) :
    covered .code left (c :: s) = covered .code (left - c.utf8Size) s := by
  cases left with
  | zero => simp [covered_zero]
  | succ left =>
      have no_quote : isQuote c = false := by
        rw [Bool.eq_false_iff]
        exact fun sort => plain (.literal sort s)
      rw [covered, no_quote]
      · rfl
      · rintro r rfl rfl
        exact plain (.lineComment r)
      · rintro r rfl rfl
        exact plain (.comment r)

theorem covered_opening_quote {quote : Char} (sort : isQuote quote = true) (left : Nat) (s : List Char) :
    covered .code (left + 1) (quote :: s) = covered (.quoted quote) (left + 1 - quote.utf8Size) s := by
  simp [covered, sort, ne_slash_of_isQuote sort]

/-- A literal goes on up to its closing quote, and code after it. -/
theorem covered_literal {quote : Char} {body : List Char} (sort : isQuote quote = true)
    (inside : LiteralBody quote body) (left : Nat) (s : List Char) :
    covered (.quoted quote) left (body ++ quote :: s) =
      (decide (left ≤ byteSize body) || covered .code (left - (byteSize body + quote.utf8Size)) s) := by
  induction inside generalizing left with
  | nil =>
      cases left with
      | zero => simp [covered_zero]
      | succ left => simp [covered, ne_backslash_of_isQuote sort, byteSize]
  | @plain c body other no_escape rest ih =>
      cases left with
      | zero => simp [covered_zero]
      | succ left =>
          have size : byteSize (c :: body) = c.utf8Size + byteSize body := rfl
          have reached : left + 1 - c.utf8Size ≤ byteSize body ↔ left + 1 ≤ byteSize (c :: body) := by omega
          have passed : left + 1 - c.utf8Size - (byteSize body + quote.utf8Size) =
              left + 1 - (byteSize (c :: body) + quote.utf8Size) := by omega
          rw [List.cons_append, covered, if_neg other, ih]
          · simp only [reached, passed]
          · exact fun d r same => absurd same no_escape
  | @escape c body rest ih =>
      cases left with
      | zero => simp [covered_zero]
      | succ left =>
          have size : byteSize ('\\' :: c :: body) = 1 + (c.utf8Size + byteSize body) := rfl
          have reached : left - c.utf8Size ≤ byteSize body ↔ left + 1 ≤ byteSize ('\\' :: c :: body) := by omega
          have passed : left - c.utf8Size - (byteSize body + quote.utf8Size) =
              left + 1 - (byteSize ('\\' :: c :: body) + quote.utf8Size) := by omega
          rw [List.cons_append, List.cons_append, covered, ih]
          simp only [reached, passed]

theorem CommentBody.tail {c : Char} {s : List Char} (inside : CommentBody (c :: s)) : CommentBody s :=
  fun ended => inside (List.infix_cons_iff.2 (.inr ended))

/-- The end of a comment is not made of a character of its body and what follows the body. -/
theorem CommentBody.head {c : Char} {body rest r : List Char} (inside : CommentBody (c :: body)) (star : c = '*')
    (ended : body ++ '*' :: rest = '/' :: r) : False := by
  cases body with
  | nil => cases ended
  | cons d body =>
      obtain ⟨rfl, -⟩ := List.cons.inj ended
      exact inside ⟨[], body, by simp [star]⟩

/-- A block comment goes on up to the `*` of its end, and code after its end. -/
theorem covered_comment {body : List Char} (inside : CommentBody body) (left : Nat) (s : List Char) :
    covered .comment left (body ++ '*' :: '/' :: s) =
      (decide (left ≤ byteSize body) || covered .code (left - (byteSize body + 2)) s) := by
  induction body generalizing left with
  | nil =>
      cases left with
      | zero => simp [covered_zero]
      | succ left => simp [covered, byteSize]
  | cons c body ih =>
      cases left with
      | zero => simp [covered_zero]
      | succ left =>
          have size : byteSize (c :: body) = c.utf8Size + byteSize body := rfl
          have reached : left + 1 - c.utf8Size ≤ byteSize body ↔ left + 1 ≤ byteSize (c :: body) := by omega
          have passed : left + 1 - c.utf8Size - (byteSize body + 2) =
              left + 1 - (byteSize (c :: body) + 2) := by omega
          rw [List.cons_append, covered, ih inside.tail]
          · simp only [reached, passed]
          · exact fun r star ended => inside.head star ended

/-- A segment with an end covers what is after its start up to the start of its terminator. -/
theorem covered_closed {front mark : List Char} (closes : Closes front mark) (left : Nat) (s : List Char) :
    covered .code left (front ++ (mark ++ s)) =
      (decide (0 < left ∧ left ≤ byteSize front) ||
        covered .code (left - (byteSize front + byteSize mark)) s) := by
  cases left with
  | zero => simp [covered_zero]
  | succ left =>
      cases closes with
      | @literal quote body sort inside =>
          have size : byteSize (quote :: body) = quote.utf8Size + byteSize body := rfl
          have reached : left + 1 - quote.utf8Size ≤ byteSize body ↔
              0 < left + 1 ∧ left + 1 ≤ byteSize (quote :: body) := by omega
          have passed : left + 1 - quote.utf8Size - (byteSize body + quote.utf8Size) =
              left + 1 - (byteSize (quote :: body) + byteSize [quote]) := by
            simp only [byteSize]
            omega
          rw [List.cons_append, covered_opening_quote sort, List.singleton_append, covered_literal sort inside]
          simp only [reached, passed]
      | @comment body inside =>
          have size : byteSize ('/' :: '*' :: body) = 1 + (1 + byteSize body) := rfl
          have reached : left - 1 ≤ byteSize body ↔
              0 < left + 1 ∧ left + 1 ≤ byteSize ('/' :: '*' :: body) := by omega
          have passed : left - 1 - (byteSize body + 2) =
              left + 1 - (byteSize ('/' :: '*' :: body) + byteSize ['*', '/']) := by
            have mark : byteSize ['*', '/'] = 2 := rfl
            omega
          simp only [List.cons_append, List.nil_append, covered]
          rw [covered_comment inside]
          simp only [reached, passed]

/-- What it takes to come out of a region. -/
def Region.Ends : Region → List Char → Prop
  | .code, _ => True
  | .quoted quote, s => ∃ body rest, LiteralBody quote body ∧ s = body ++ quote :: rest
  | .comment, s => ∃ body rest, CommentBody body ∧ s = body ++ '*' :: '/' :: rest

/-- A region that the reading comes out of is ended by the text. -/
theorem ends_of_not_covered {region : Region} {left : Nat} {s : List Char}
    (passed : covered region left s = false) : region.Ends s := by
  fun_induction covered region left s with
  | case1 _ region | case2 region =>
      obtain rfl : region = .code := by simpa using passed
      trivial
  | case3 | case4 | case5 => trivial
  | case6 quote left d s ih =>
      obtain ⟨body, rest, inside, rfl⟩ := ih passed
      exact ⟨'\\' :: d :: body, rest, .escape inside, rfl⟩
  | case7 quote left c s no_escape ih =>
      by_cases closing : c = quote
      · exact ⟨[], s, .nil, by rw [closing]; rfl⟩
      · rw [if_neg closing] at passed ih
        obtain ⟨body, rest, inside, rfl⟩ := ih passed
        have plain : c ≠ '\\' := by
          intro escape
          cases body with
          | nil => exact no_escape _ _ escape rfl
          | cons d body => exact no_escape _ _ escape rfl
        exact ⟨c :: body, rest, .plain closing plain inside, rfl⟩
  | case8 left s ih => exact ⟨[], s, by simp [CommentBody], rfl⟩
  | case9 left c s no_end ih =>
      obtain ⟨body, rest, inside, rfl⟩ := ih passed
      refine ⟨c :: body, rest, ?_, rfl⟩
      intro ended
      rcases List.infix_cons_iff.1 ended with here | later
      · obtain ⟨rfl, r, rfl⟩ := List.cons_prefix_cons.1 here
        exact no_end _ rfl rfl
      · exact inside later

/-- A segment without an end covers all that is after its start. -/
theorem covered_unclosed {s : List Char} (unclosed : Unclosed s) (left : Nat) :
    covered .code left s = decide (0 < left) := by
  obtain ⟨opens, endless⟩ := unclosed
  cases left with
  | zero => simp [covered_zero]
  | succ left =>
      rw [decide_eq_true (Nat.succ_pos left), ← Bool.not_eq_false]
      intro passed
      cases opens with
      | lineComment s => simp [covered] at passed
      | literal sort s =>
          rw [covered_opening_quote sort] at passed
          obtain ⟨body, rest, inside, rfl⟩ := ends_of_not_covered passed
          exact endless _ _ rest (.literal sort inside) rfl
      | comment s =>
          simp only [covered] at passed
          obtain ⟨body, rest, inside, rfl⟩ := ends_of_not_covered passed
          exact endless _ _ rest (.comment inside) rfl

/-! ## The whole line -/

/-- Reading by character from where a segmented text starts. -/
theorem Segmented.covered_iff {start : Nat} {s : List Char} {segments : List Segment}
    (segmented : Segmented start s segments) (offset : Nat) :
    covered .code (offset - start) s = true ↔ ∃ g ∈ segments, g.Covers offset := by
  induction segmented with
  | done start => cases offset - start <;> simp [covered]
  | code plain rest ih => rw [covered_code plain, Nat.sub_sub, ih]
  | @closed start front mark s segments closes rest ih =>
      have here : Segment.Covers ⟨start, some (start + byteSize front)⟩ offset ↔
          0 < offset - start ∧ offset - start ≤ byteSize front := by
        simp only [Segment.Covers, Option.some.injEq, forall_eq']
        omega
      rw [covered_closed closes, Bool.or_eq_true, decide_eq_true_eq, Nat.sub_sub, ih, List.exists_mem_cons_iff,
        here]
  | @unclosed start s unclosed =>
      rw [covered_unclosed unclosed, decide_eq_true_eq, Nat.sub_pos_iff_lt]
      simp [Segment.Covers]

/-- **The literals and comments of a line are its segments.** A line can be read in segments, and however it is
read, an offset lies in a literal or a comment exactly if one of the segments covers it: the offset is after the
start of the segment, and not after the start of its terminator if it has one. -/
theorem inLiteral_iff_segment (line : String) :
    (∃ segments, Segmented 0 line.toList segments) ∧
      ∀ segments, Segmented 0 line.toList segments →
        ∀ offset, inLiteral line offset = true ↔ ∃ g ∈ segments, g.Covers offset :=
  ⟨exists_segmented 0 line.toList, fun _ segmented offset => segmented.covered_iff offset⟩

end CodeOutline.Line
