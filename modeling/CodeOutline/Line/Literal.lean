/-!
# Line.Literal — code, string literals and comments in a line

A literal runs from one of the quotes `"`, `'` and the backtick to the next quote of the same sort; in
it a backslash takes the next character with it. A block comment runs from `/*` to the next `*/`, and
`//` in code makes the whole rest of the line a comment. Each line is read by itself: what an earlier
line left open is not known here.
-/

namespace CodeOutline.Line

/-- What the characters read so far leave open. -/
inductive Region where
  | code
  | quoted (quote : Char)
  | comment
  deriving DecidableEq, Repr

def isQuote (c : Char) : Bool :=
  c == '"' || c == '\'' || c == '\x60'

/-- Whether the place `left` bytes further on lies in a literal or comment, when the text before `s`
has left `region` open. Reading stops at the first character that starts at that place or later; the
second character of an escape, of `/*` and of `*/` belongs to the first. -/
def covered : Region → (left : Nat) → List Char → Bool
  | region, 0, _ => region ≠ .code
  | region, _ + 1, [] => region ≠ .code
  | .code, _ + 1, '/' :: '/' :: _ => true
  | .code, left + 1, '/' :: '*' :: s => covered .comment (left - 1) s
  | .code, left + 1, c :: s =>
      covered (if isQuote c then .quoted c else .code) (left + 1 - c.utf8Size) s
  | .quoted q, left + 1, '\\' :: d :: s => covered (.quoted q) (left - d.utf8Size) s
  | .quoted q, left + 1, c :: s =>
      covered (if c = q then .code else .quoted q) (left + 1 - c.utf8Size) s
  | .comment, left + 1, '*' :: '/' :: s => covered .code (left - 1) s
  | .comment, left + 1, c :: s => covered .comment (left + 1 - c.utf8Size) s

/-- Whether a byte offset of a line lies in a string literal or a comment that starts before it. -/
def inLiteral (line : String) (offset : Nat) : Bool :=
  covered .code offset line.toList

end CodeOutline.Line
