import CodeOutline.Yaml.Cursor

/-!
# Yaml.Scalar — plain scalars, quoted scalars and blocks

A plain or quoted scalar may go on over several lines. The blanks and breaks between two of its words
are a gap: inside a line the blanks count as they are, a single line break counts as a blank, and of
several breaks the first is left out. Each scanner reads character by character, remembers the gap it is
in, and keeps what it has read with the last character first.
-/

namespace CodeOutline.Yaml

/-- How a scalar is written, as far as it bears on its meaning. -/
inductive Style where
  /-- Without quotes: it may stand for a null, a truth value or a number. -/
  | plain
  /-- In single or double quotes. -/
  | quoted
  /-- As a block after `|`. -/
  | literal
  /-- As a block after `>`. -/
  | folded
  deriving DecidableEq, Repr

/-- The blanks and line breaks read since the last character of a scalar, the last of them first. -/
structure Gap where
  /-- The blanks, as long as there is no break. -/
  blanks : List Char := []
  /-- A break was read, or skipped by an escape. -/
  broken : Bool := false
  /-- The first break. -/
  first : Option Char := none
  /-- The further breaks. -/
  more : List Char := []

namespace Gap

/-- The gap with one more blank; at the start of a line it does not count. -/
def blank (g : Gap) (c : Char) : Gap :=
  if g.broken then g else { g with blanks := c :: g.blanks }

def newLine (g : Gap) (c : Char) : Gap :=
  if g.broken then { g with more := c :: g.more }
  else { g with blanks := [], broken := true, first := some c }

/-- What was read before a gap and the text that the gap stands for. -/
def onto (g : Gap) (read : List Char) : List Char :=
  if !g.broken then g.blanks ++ read
  else
    match g.first with
    | none => g.more ++ read
    | some '\n' => if g.more.isEmpty then ' ' :: read else g.more ++ read
    | some c => g.more ++ c :: read

def isEmpty (g : Gap) : Bool := g.blanks.isEmpty && !g.broken

end Gap

/-! ## Plain scalars -/

def isFlowMark (c : Char) : Bool :=
  c == ',' || c == '[' || c == ']' || c == '\x7b' || c == '\x7d'

/-- Characters that no plain scalar starts with, unless as allowed by `startsPlain`. -/
def isIndicator (c : Char) : Bool :=
  isFlowMark c || c == '-' || c == '?' || c == ':' || c == '#' || c == '&' || c == '*' || c == '!' ||
    c == '|' || c == '>' || c == '\'' || c == '"' || c == '%' || c == '@' || c == '\x60'

def startsPlain (flow : Bool) : List Char → Bool
  | [] => false
  | c :: s =>
      if c == '-' then !s.head?.any isSpace
      else if c == '?' || c == ':' then !flow && !startsBlank s
      else !(isSpace c || isBreak c || isIndicator c)

/-- A plain scalar that was read: its text, whether a line break was read after it, and the place
after all that. -/
structure Plain where
  text : String
  broken : Bool
  stop : Cursor

/-- Read a plain scalar whose later lines are indented by at least `low`. It ends before `: `, before
` #`, before a mark inside brackets, before a document marker and before a line indented less, and the
blanks and breaks up to there are passed over. `none` for a `:` inside brackets that a mark follows, and
for a tab in the indentation. -/
def plainFrom (flow : Bool) (low : Nat) : (read : List Char) → Gap → Place → List Char → Option Plain
  | read, gap, p, [] => some ⟨String.ofList read.reverse, gap.broken, ⟨p, []⟩⟩
  | read, gap, p, c :: s =>
      let done := some ⟨String.ofList read.reverse, gap.broken, ⟨p, c :: s⟩⟩
      if isSpace c then
        if gap.broken && p.column < low && c == '\t' then none
        else plainFrom flow low read (gap.blank c) (p.after c) s
      else if isBreak c then plainFrom flow low read (gap.newLine c) (p.after c) s
      else if gap.broken && !flow && p.column < low then done
      else if Cursor.atMarker ⟨p, c :: s⟩ then done
      else if c == '#' && !gap.isEmpty then done
      else if c == ':' && startsBlank s then done
      else if c == ':' && flow && s.head?.any (fun d => isFlowMark d || d == '?') then none
      else if flow && isFlowMark c then done
      else plainFrom flow low (c :: gap.onto read) {} (p.after c) s

def plain (flow : Bool) (low : Nat) (c : Cursor) : Option Plain :=
  plainFrom flow low [] {} c.toPlace c.rest

/-! ## Quoted scalars -/

/-- What a quoted scalar is in the middle of. -/
inductive QuoteState where
  | text
  /-- After a backslash. -/
  | escape
  /-- In the hexadecimal digits of an escape, so many of them to come. -/
  | hex (left value : Nat)

/-- The character a letter stands for after a backslash. -/
def escaped? (c : Char) : Option Char :=
  match c with
  | '0' => some '\x00'
  | 'a' => some '\x07'
  | 'b' => some '\x08'
  | 't' => some '\t'
  | '\t' => some '\t'
  | 'n' => some '\n'
  | 'v' => some '\x0b'
  | 'f' => some '\x0c'
  | 'r' => some '\r'
  | 'e' => some '\x1b'
  | ' ' => some ' '
  | '"' => some '"'
  | '/' => some '/'
  | '\\' => some '\\'
  | 'N' => some '\u0085'
  | '_' => some '\u00a0'
  | 'L' => some '\u2028'
  | 'P' => some '\u2029'
  | _ => none

def hexLength? (c : Char) : Option Nat :=
  match c with
  | 'x' => some 2
  | 'u' => some 4
  | 'U' => some 8
  | _ => none

/-- Read a double-quoted scalar from after its opening quote. -/
def doubleFrom : QuoteState → (read : List Char) → Gap → Place → List Char → Option (String × Cursor)
  | _, _, _, _, [] => none
  | .hex left value, read, _, p, c :: s =>
      match digitValue? c with
      | none => none
      | some d =>
          let value := 16 * value + d
          if left = 1 then
            if value.isValidChar then doubleFrom .text (Char.ofNat value :: read) {} (p.after c) s
            else none
          else doubleFrom (.hex (left - 1) value) read {} (p.after c) s
  | .escape, read, _, p, c :: s =>
      if isBreak c then doubleFrom .text read { broken := true } (p.after c) s
      else
        match escaped? c, hexLength? c with
        | some e, _ => doubleFrom .text (e :: read) {} (p.after c) s
        | none, some n => doubleFrom (.hex n 0) read {} (p.after c) s
        | none, none => none
  | .text, read, gap, p, c :: s =>
      if isSpace c then doubleFrom .text read (gap.blank c) (p.after c) s
      else if isBreak c then doubleFrom .text read (gap.newLine c) (p.after c) s
      else if Cursor.atMarker ⟨p, c :: s⟩ then none
      else
        let read := gap.onto read
        if c = '"' then some (String.ofList read.reverse, ⟨p.after c, s⟩)
        else if c = '\\' then doubleFrom .escape read {} (p.after c) s
        else doubleFrom .text (c :: read) {} (p.after c) s

/-- Read a single-quoted scalar from after its opening quote; a quote in it is written twice. -/
def singleFrom : (read : List Char) → Gap → Place → List Char → Option (String × Cursor)
  | _, _, _, [] => none
  | read, gap, p, c :: s =>
      if isSpace c then singleFrom read (gap.blank c) (p.after c) s
      else if isBreak c then singleFrom read (gap.newLine c) (p.after c) s
      else if Cursor.atMarker ⟨p, c :: s⟩ then none
      else
        let read := gap.onto read
        if c = '\'' then
          match s with
          | '\'' :: s => singleFrom ('\'' :: read) {} ((p.after c).after c) s
          | s => some (String.ofList read.reverse, ⟨p.after c, s⟩)
        else singleFrom (c :: read) {} (p.after c) s

def quoted (c : Cursor) : Option (String × Cursor) :=
  match c.rest with
  | '"' :: s => doubleFrom .text [] {} (c.toPlace.after '"') s
  | '\'' :: s => singleFrom [] {} (c.toPlace.after '\'') s
  | _ => none

/-! ## Block scalars -/

/-- What becomes of the line breaks at the end of a block. -/
inductive Chomp where
  /-- One is kept, if there is any. -/
  | clip
  | strip
  | keep
  deriving DecidableEq

def Chomp.ofSign? : Char → Option Chomp
  | '+' => some .keep
  | '-' => some .strip
  | _ => none

/-- A depth given as a digit from 1 to 9. The outer `none` is for a zero. -/
def depthSign (c : Cursor) : Option (Option Nat × Cursor) :=
  match c.rest with
  | '0' :: _ => none
  | d :: _ => if d.isDigit then some (some (d.toNat - '0'.toNat), c.pass 1) else some (none, c)
  | [] => some (none, c)

/-- The signs after `|` or `>`, in either order: how the end is treated, and how deep the block is
indented. -/
def blockHeader (c : Cursor) : Option (Chomp × Option Nat × Cursor) :=
  match c.rest.head?.bind Chomp.ofSign? with
  | some chomp => (depthSign (c.pass 1)).map fun (n, c) => (chomp, n, c)
  | none =>
      (depthSign c).map fun (n, c) =>
        match n, c.rest.head?.bind Chomp.ofSign? with
        | some _, some chomp => (chomp, n, c.pass 1)
        | _, _ => (.clip, n, c)

/-- Pass over the indentation of a block and the lines that hold nothing but that: their breaks, and
the place reached. `none` for a tab in the indentation. -/
def passIndent (depth : Nat) : (breaks : List Char) → Place → List Char → Option (List Char × Cursor)
  | breaks, p, [] => some (breaks, ⟨p, []⟩)
  | breaks, p, c :: s =>
      if isBreak c then passIndent depth (c :: breaks) (p.after c) s
      else if p.column < depth && isSpace c then
        if c == '\t' then none else passIndent depth breaks (p.after c) s
      else some (breaks, ⟨p, c :: s⟩)

/-- The same where the depth is not known yet; the deepest indentation met is given as well. -/
def measureIndent : (deepest : Nat) → (breaks : List Char) → Place → List Char →
    Option (Nat × List Char × Cursor)
  | deepest, breaks, p, [] => some (max deepest p.column, breaks, ⟨p, []⟩)
  | deepest, breaks, p, c :: s =>
      if isBreak c then measureIndent (max deepest p.column) (c :: breaks) (p.after c) s
      else if c == ' ' then measureIndent deepest breaks (p.after c) s
      else if c == '\t' then none
      else some (max deepest p.column, breaks, ⟨p, c :: s⟩)

/-- What was read of a block, the last character first. -/
structure Block where
  read : List Char := []
  /-- The break that ended the last line. -/
  ending : Option Char := none
  /-- The last line started with a blank. -/
  indented : Bool := false
  /-- The breaks since. -/
  more : List Char := []

namespace Block

/-- What was read before the next line. In a folded block a break between two lines that start with no
blank counts as a blank, or is left out before further breaks. -/
def joined (folded indented : Bool) (b : Block) : List Char :=
  match b.ending with
  | none => b.more ++ b.read
  | some c =>
      if folded && c == '\n' && !b.indented && !indented then
        if b.more.isEmpty then ' ' :: b.read else b.more ++ b.read
      else b.more ++ c :: b.read

def text (b : Block) (chomp : Chomp) : String :=
  let ending := b.ending.toList
  String.ofList <| List.reverse <|
    match chomp with
    | .strip => b.read
    | .clip => ending ++ b.read
    | .keep => b.more ++ ending ++ b.read

end Block

/-- Read the lines of a block. The count bounds their number. -/
def blockLines (folded : Bool) (depth : Nat) : Nat → Block → Cursor → Option (Block × Cursor)
  | 0, b, c => some (b, c)
  | n + 1, b, c =>
      if c.column = depth ∧ !c.rest.isEmpty then
        let indented := c.rest.head?.any isSpace
        let line := c.rest.takeWhile (!isBreak ·)
        let stop := c.pass line.length
        let next := stop.pass 1
        match passIndent depth [] next.toPlace next.rest with
        | none => none
        | some (more, c) =>
            blockLines folded depth n
              { read := line.reverse ++ b.joined folded indented
                ending := stop.rest.head?, indented, more } c
      else some (b, c)

/-- Read a block scalar, its `|` or `>` included, inside a node whose content is indented by at least
`low`. A depth that is not given is that of the first line with text, or of a deeper blank line before
it. -/
def block (low : Nat) (c : Cursor) : Option (Style × String × Cursor) := do
  let folded := c.at? '>'
  let (chomp, given, c) ← blockHeader (c.pass 1)
  let c ← c.endOfLine
  let (depth, more, c) ←
    match given with
    | some n => (passIndent (low - 1 + n) [] c.toPlace c.rest).map ((low - 1 + n, ·))
    | none =>
        (measureIndent 0 [] c.toPlace c.rest).map fun (deepest, r) => (max deepest (max low 1), r)
  let (b, c) ← blockLines folded depth c.rest.length { more } c
  return (if folded then .folded else .literal, b.text chomp, c)

end CodeOutline.Yaml
