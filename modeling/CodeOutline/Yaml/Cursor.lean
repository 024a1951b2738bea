import CodeOutline.Text.Offset

/-!
# Yaml.Cursor — places in a YAML text, and what lies between tokens

Between one token and the next lie blanks, comments and line breaks.

Five characters break a line: `\n`, `\r` (with a `\n` after it, as one break), `U+0085`, `U+2028` and
`U+2029`. The first three mean the same, so `oneBreak` writes them all as `\n`.

A text is taken in by blocks of at most 16384 bytes. Each block is looked through for characters that
a text may not hold before any of it is read, and reading ends before the first block that has one.
-/

namespace CodeOutline.Yaml

def isBreak (c : Char) : Bool :=
  c == '\n' || c == '\u2028' || c == '\u2029'

def isSpace (c : Char) : Bool := c == ' ' || c == '\t'

def startsBlank : List Char → Bool
  | [] => true
  | c :: _ => isSpace c || isBreak c

def isNameChar (c : Char) : Bool := c.isAlphanum || c == '_' || c == '-'

def digitValue? (c : Char) : Option Nat :=
  if '0' ≤ c ∧ c ≤ '9' then some (c.toNat - '0'.toNat)
  else if 'a' ≤ c ∧ c ≤ 'f' then some (c.toNat - 'a'.toNat + 10)
  else if 'A' ≤ c ∧ c ≤ 'F' then some (c.toNat - 'A'.toNat + 10)
  else none

def isAllowed (c : Char) : Bool :=
  c == '\t' || c == '\n' || c == '\r' || (' ' ≤ c && c ≤ '~') || c == '\u0085' ||
    ('\u00a0' ≤ c && c != '\ufffe' && c != '\uffff')

/-- The largest number of bytes that are taken in at once. -/
def blockSize : Nat := 16384

/-- The number of characters before the first block that holds a refused one, if there is such a
block. So far `done` characters are in earlier blocks, and `here` of them, `size` bytes, in this one. -/
def refusedFrom : (done here size : Nat) → List Char → Option Nat
  | _, _, _, [] => none
  | done, here, size, c :: s =>
      if blockSize < size + c.utf8Size then
        if isAllowed c then refusedFrom (done + here) 1 c.utf8Size s else some (done + here)
      else if isAllowed c then refusedFrom done (here + 1) (size + c.utf8Size) s
      else some done

def oneBreak : List Char → List Char
  | [] => []
  | '\r' :: '\n' :: s => '\n' :: oneBreak s
  | c :: s => (if c == '\r' || c == '\u0085' then '\n' else c) :: oneBreak s

/-- A place by its line, its column, and the number of bytes before it in the line. -/
structure Place where
  line : Nat := 0
  column : Nat := 0
  width : Nat := 0
  deriving DecidableEq, Repr

def Place.after (p : Place) (c : Char) : Place :=
  if isBreak c then ⟨p.line + 1, 0, 0⟩ else ⟨p.line, p.column + 1, p.width + c.utf8Size⟩

/-- A place in a text and what follows it. -/
structure Cursor extends Place where
  rest : List Char
  deriving DecidableEq, Repr

namespace Cursor

def pass (c : Cursor) (n : Nat) : Cursor :=
  { toPlace := (c.rest.take n).foldl Place.after c.toPlace, rest := c.rest.drop n }

def passWhile (c : Cursor) (p : Char → Bool) : Cursor :=
  c.pass (c.rest.takeWhile p).length

def at? (c : Cursor) (mark : Char) : Bool := c.rest.head? == some mark

/-- At the start of a line a character three times over, with a blank after it. -/
def atThree (c : Cursor) (mark : Char) : Bool :=
  c.column == 0 &&
    match c.rest with
    | x :: y :: z :: s => x == mark && y == mark && z == mark && startsBlank s
    | _ => false

/-- A line that starts with `---` or `...` ends the document before it. -/
def atMarker (c : Cursor) : Bool := c.atThree '-' || c.atThree '.'

/-- Pass over blanks, comments and line breaks. A tab is a blank inside brackets (`flow`), and outside
them only where no key may start; a byte order mark may start a line. The answer says whether a key may
start at the place reached: outside brackets it may after a line break. -/
def skipFrom (flow : Bool) : (comment keyOk : Bool) → Place → List Char → Bool × Cursor
  | _, keyOk, p, [] => (keyOk, ⟨p, []⟩)
  | comment, keyOk, p, c :: s =>
      if isBreak c then skipFrom flow false (keyOk || !flow) (p.after c) s
      else if comment || c == '#' then skipFrom flow true keyOk (p.after c) s
      else if c == ' ' || (c == '\t' && (flow || !keyOk)) || (c == '\ufeff' && p.column == 0) then
        skipFrom flow false keyOk (p.after c) s
      else (keyOk, ⟨p, c :: s⟩)

/-- The next token's place, and whether a key may start there. -/
def skip (c : Cursor) (flow keyOk : Bool) : Bool × Cursor :=
  skipFrom flow false keyOk c.toPlace c.rest

/-- The place after a line whose rest may hold blanks and a comment only. -/
def endOfLine (c : Cursor) : Option Cursor :=
  let c := c.passWhile isSpace
  let c := if c.at? '#' then c.passWhile (!isBreak ·) else c
  match c.rest with
  | [] => some c
  | x :: _ => if isBreak x then some (c.pass 1) else none

end Cursor

end CodeOutline.Yaml
