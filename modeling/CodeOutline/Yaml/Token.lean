import CodeOutline.Yaml.Scalar
import CodeOutline.Yaml.Tag

/-!
# Yaml.Token — the tokens of a YAML text

Tokens are the marks, names and scalars of a text, with the starts and ends of the collections that are
held together by indentation.

A text is read one token after another. What makes it more than a search for the next mark is that a
key is known only by the `:` after it. Wherever a key may start the place is remembered (`KeyPlace`),
one for each pair of brackets around it, and when the `:` comes the tokens for a key and, perhaps, for
a mapping are put in there. A key must stand on one line and before the `:` there may be no more than
1024 bytes.

A block collection is held together by the column of its items. `low` is one more than that column: the
least column that a node inside may have, and 0 outside all collections.
-/

namespace CodeOutline.Yaml

/-- One token of a text. -/
inductive Token where
  | directive (d : Directive)
  | documentStart
  | documentEnd
  | blockSequence
  | blockMapping
  /-- The end of a block sequence or block mapping. -/
  | blockEnd
  | flowSequence
  | flowSequenceEnd
  | flowMapping
  | flowMappingEnd
  /-- The `-` before an item. -/
  | item
  /-- The `,` between two items. -/
  | comma
  | key
  | value
  | alias (name : String)
  | anchor (name : String)
  /-- A tag by its handle and the part after it. -/
  | tag (handle : String) (rest : Tag)
  | scalar (style : Style) (text : String)
  | textEnd
  deriving DecidableEq, Repr

structure KeyPlace extends Place where
  /-- The number of tokens before it. -/
  number : Nat
  /-- Nothing but a key can stand there. -/
  required : Bool
  deriving DecidableEq, Repr

/-- How far a text is read. -/
structure Reading where
  cursor : Cursor
  /-- The tokens so far, the last first. -/
  tokens : List Token := []
  low : Nat := 0
  /-- What `low` was in the collections around. -/
  outerLows : List Nat := []
  /-- Where a key may have started inside the innermost brackets, and inside those around. -/
  keyPlace : Option KeyPlace := none
  outerKeys : List (Option KeyPlace) := []
  /-- A key may start here. -/
  keyOk : Bool := true
  deriving DecidableEq, Repr

namespace Reading

def flow (r : Reading) : Bool := !r.outerKeys.isEmpty

def emit (r : Reading) (t : Token) : Reading := { r with tokens := t :: r.tokens }

/-- A token put in before all but the first `number` of them. -/
def insert (r : Reading) (number : Nat) (t : Token) : Reading :=
  let later := r.tokens.length - number
  { r with tokens := r.tokens.take later ++ t :: r.tokens.drop later }

def pass (r : Reading) (n : Nat) : Reading := { r with cursor := r.cursor.pass n }

/-- A place where a key may have started, unless it is too far back. `none` where a key had to be. -/
def freshKey (p : Place) : Option KeyPlace → Option (Option KeyPlace)
  | none => some none
  | some k =>
      if k.line = p.line ∧ p.width ≤ k.width + 1024 then some (some k)
      else if k.required then none
      else some none

/-- Forget the places where no key can have started, seen from here. -/
def dropStale (r : Reading) : Option Reading := do
  let keyPlace ← freshKey r.cursor.toPlace r.keyPlace
  let outerKeys ← r.outerKeys.mapM (freshKey r.cursor.toPlace)
  return { r with keyPlace, outerKeys }

/-- No key has started inside these brackets. `none` where one had to. -/
def dropKey (r : Reading) : Option Reading :=
  if r.keyPlace.any (·.required) then none else some { r with keyPlace := none }

/-- A key may have started here, if one may. It has to in the column of a mapping's keys. -/
def saveKey (r : Reading) : Option Reading :=
  if r.keyOk then
    r.dropKey.map fun r =>
      { r with
        keyPlace := some
          { toPlace := r.cursor.toPlace
            number := r.tokens.length
            required := !r.flow && r.low == r.cursor.column + 1 } }
  else some r

/-- A collection of items in this column starts before all but the first `number` tokens, unless it has
started already. -/
def openBlock (r : Reading) (column number : Nat) (t : Token) : Reading :=
  if !r.flow && r.low ≤ column then
    { r.insert number t with low := column + 1, outerLows := r.low :: r.outerLows }
  else r

def closeFrom (column : Nat) : Nat → List Nat → List Token → Nat × List Nat × List Token
  | low, outer :: rest, tokens =>
      if column < low then closeFrom column outer rest (.blockEnd :: tokens) else (low, outer :: rest, tokens)
  | low, [], tokens => (low, [], tokens)

/-- End the block collections whose items stand in a column from `column` on, outside brackets. -/
def closeBlocks (r : Reading) (column : Nat) : Reading :=
  if r.flow then r
  else
    let (low, outerLows, tokens) := closeFrom column r.low r.outerLows r.tokens
    { r with low, outerLows, tokens }

/-- What a directive, a document marker or the end of the text ends: all block collections, and a key. -/
def closeAll (r : Reading) : Option Reading :=
  (r.closeBlocks 0).dropKey.map fun r => { r with keyOk := false }

/-- The end of the text. It ends the line too, and with it what could have been a key. -/
def readEnd (r : Reading) : Option Reading :=
  r.closeAll.map fun r =>
    { r.emit .textEnd with cursor := { rest := [], line := r.cursor.line + 1 } }

def readDirective (r : Reading) : Option Reading := do
  let r ← r.closeAll
  let (d, cursor) ← Directive.written r.cursor
  return { r.emit (.directive d) with cursor }

def readMarker (r : Reading) (t : Token) : Option Reading :=
  r.closeAll.map fun r => (r.emit t).pass 3

/-- An opening bracket; it may be the start of a key. -/
def readOpening (r : Reading) (t : Token) : Option Reading :=
  r.saveKey.map fun r =>
    { (r.emit t).pass 1 with outerKeys := r.keyPlace :: r.outerKeys, keyPlace := none, keyOk := true }

def readClosing (r : Reading) (t : Token) : Option Reading :=
  r.dropKey.map fun r =>
    let closed := { (r.emit t).pass 1 with keyOk := false }
    match r.outerKeys with
    | k :: outerKeys => { closed with keyPlace := k, outerKeys }
    | [] => closed

def readComma (r : Reading) : Option Reading :=
  r.dropKey.map fun r => { (r.emit .comma).pass 1 with keyOk := true }

/-- The `-` of an item, or the `?` of a key that is marked as one: outside brackets only where a key may
start. -/
def readMark (r : Reading) (collection mark : Token) (keyOk : Bool) : Option Reading :=
  if !r.flow && !r.keyOk then none
  else
    (r.openBlock r.cursor.column r.tokens.length collection).dropKey.map fun r =>
      { (r.emit mark).pass 1 with keyOk }

/-- The `:` after a key. The key is the one that may have started last, or else one that was marked. -/
def readValue (r : Reading) : Option Reading :=
  match r.keyPlace with
  | some k =>
      let r := (r.insert k.number .key).openBlock k.column k.number .blockMapping
      some { (r.emit .value).pass 1 with keyPlace := none, keyOk := false }
  | none =>
      if !r.flow && !r.keyOk then none
      else
        let r := r.openBlock r.cursor.column r.tokens.length .blockMapping
        some { (r.emit .value).pass 1 with keyOk := !r.flow }

/-- The name after `*` or `&`. -/
def readName (r : Reading) (t : String → Token) : Option Reading := do
  let r ← r.saveKey
  let c := r.cursor.pass 1
  let name := c.rest.takeWhile isNameChar
  let c := c.pass name.length
  let ended := startsBlank c.rest ||
    c.rest.head?.any ['?', ':', ',', ']', '\x7d', '%', '@', '\x60'].contains
  if name.isEmpty ∨ !ended then none
  else some { r.emit (t (String.ofList name)) with cursor := c, keyOk := false }

def readTag (r : Reading) : Option Reading := do
  let r ← r.saveKey
  let (handle, rest, cursor) ← Tag.written r.flow r.cursor
  return { r.emit (.tag handle rest) with cursor, keyOk := false }

def readBlock (r : Reading) : Option Reading := do
  let r ← r.dropKey
  let (style, text, cursor) ← block r.low r.cursor
  return { r.emit (.scalar style text) with cursor, keyOk := true }

def readQuoted (r : Reading) : Option Reading := do
  let r ← r.saveKey
  let (text, cursor) ← quoted r.cursor
  return { r.emit (.scalar .quoted text) with cursor, keyOk := false }

def readPlain (r : Reading) : Option Reading := do
  let r ← r.saveKey
  let s ← plain r.flow r.low r.cursor
  return { r.emit (.scalar .plain s.text) with cursor := s.stop, keyOk := s.broken }

/-- The token that starts here. -/
def readToken (r : Reading) : Option Reading :=
  match r.cursor.rest with
  | [] => r.readEnd
  | c :: s =>
      if r.cursor.column = 0 ∧ c = '%' then r.readDirective
      else if r.cursor.atThree '-' then r.readMarker .documentStart
      else if r.cursor.atThree '.' then r.readMarker .documentEnd
      else if c = '[' then r.readOpening .flowSequence
      else if c = '\x7b' then r.readOpening .flowMapping
      else if c = ']' then r.readClosing .flowSequenceEnd
      else if c = '\x7d' then r.readClosing .flowMappingEnd
      else if c = ',' then r.readComma
      else if c = '-' ∧ startsBlank s then r.readMark .blockSequence .item true
      else if c = '?' ∧ (r.flow ∨ startsBlank s) then r.readMark .blockMapping .key (!r.flow)
      else if c = ':' ∧ (r.flow ∨ startsBlank s) then r.readValue
      else if c = '*' then r.readName .alias
      else if c = '&' then r.readName .anchor
      else if c = '!' then r.readTag
      else if (c = '|' ∨ c = '>') ∧ !r.flow then r.readBlock
      else if c = '"' ∨ c = '\'' then r.readQuoted
      else if startsPlain r.flow (c :: s) then r.readPlain
      else none

/-- Read one token, and before it the blanks and the ends of the collections that stand deeper. -/
def step (r : Reading) : Option Reading := do
  let (keyOk, cursor) := r.cursor.skip r.flow r.keyOk
  let r ← { r with cursor, keyOk }.dropStale
  let r ← (r.closeBlocks (cursor.column + 1)).readToken
  r.dropStale

/-- The tokens that no key can be put before any more. -/
def settled (r : Reading) : List Token :=
  let numbers := (r.keyPlace :: r.outerKeys).filterMap fun k => k.map (·.number)
  r.tokens.reverse.take (numbers.foldl min r.tokens.length)

/-- Read up to the end of the text: all tokens and `true`, or the tokens that are settled where the text
breaks off, and `false`. If there is more text than can be read (`cut`), it breaks off where it is looked at.
The count bounds the number of steps. -/
def run (cut : Bool) : Nat → Reading → List Token × Bool
  | 0, r => (r.settled, false)
  | n + 1, r =>
      if r.tokens.head? = some .textEnd then (r.tokens.reverse, true)
      else if cut ∧ ((r.cursor.skip r.flow r.keyOk).2.rest.drop 3).isEmpty then (r.settled, false)
      else
        match r.step with
        | none => (r.settled, false)
        | some next => if cut ∧ next.cursor.rest.isEmpty then (r.settled, false) else run cut n next

end Reading

/-- The tokens of a text, up to where it breaks off if it does; the answer says whether it is whole. -/
def tokens (text : String) : List Token × Bool :=
  let start := fun cs => ({ cursor := { rest := oneBreak cs } } : Reading)
  match refusedFrom 0 0 0 text.toList with
  | none => (start text.toList).run false (text.length + 2)
  | some 0 => ([], false)
  | some n => (start (text.toList.take n)).run true (n + 2)

end CodeOutline.Yaml
