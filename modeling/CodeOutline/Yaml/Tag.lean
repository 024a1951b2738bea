import CodeOutline.Yaml.Cursor

/-!
# Yaml.Tag — tags, and the directives at the head of a document

A tag is written as `!` and a name, as a handle such as `!e!` and a name, or in full between `!<` and
`>`. In the name, `%` and two hexadecimal digits stand for a byte, and the bytes for a character in its
UTF-8 form. A form that is too long or stands for no character is let through; such a tag has no
readable name.
-/

namespace CodeOutline.Yaml

structure Tag where
  text : String
  /-- Every escape in it stands for a character. -/
  readable : Bool := true
  deriving DecidableEq, Repr

namespace Tag

def append (a b : Tag) : Tag := ⟨a.text ++ b.text, a.readable && b.readable⟩

/-- The part that some characters spell, up to a `U+0000`; `none` is an escape that stands for no
character. -/
def ofChars (cs : List (Option Char)) : Tag :=
  let cs := cs.takeWhile (· != some '\x00')
  ⟨String.ofList (cs.map (·.getD '\ufffd')), cs.all Option.isSome⟩

def byteCount? (b : Nat) : Option Nat :=
  if b < 0x80 then some 1
  else if b < 0xc0 then none
  else if b < 0xe0 then some 2
  else if b < 0xf0 then some 3
  else if b < 0xf8 then some 4
  else none

def byte? (c : Cursor) : Option Nat :=
  match c.rest with
  | '%' :: a :: b :: _ => (digitValue? a).bind fun x => (digitValue? b).map fun y => 16 * x + y
  | _ => none

/-- The bytes of a character after its first, so many of them, taken up in a number. -/
def laterBytes : Nat → (value : Nat) → Cursor → Option (Nat × Cursor)
  | 0, value, c => some (value, c)
  | n + 1, value, c =>
      match byte? c with
      | some b => if 0x80 ≤ b ∧ b < 0xc0 then laterBytes n (64 * value + (b - 0x80)) (c.pass 3) else none
      | none => none

/-- The character of a number, if so many bytes are its form. -/
def charOfBytes? (count value : Nat) : Option Char :=
  let least := match count with
    | 1 => 0
    | 2 => 0x80
    | 3 => 0x800
    | _ => 0x10000
  if least ≤ value ∧ value.isValidChar then some (Char.ofNat value) else none

/-- The character that escapes stand for, if it is one. -/
def escape? (c : Cursor) : Option (Option Char × Cursor) := do
  let first ← byte? c
  let count ← byteCount? first
  let top := match count with
    | 1 => first
    | 2 => first - 0xc0
    | 3 => first - 0xe0
    | _ => first - 0xf0
  let (value, c) ← laterBytes (count - 1) top (c.pass 3)
  return (charOfBytes? count value, c)

/-- The characters of a tag. In full tags and in directives there are three more. -/
def isUriChar (full : Bool) (c : Char) : Bool :=
  isNameChar c || (full && [',', '[', ']'].contains c) ||
    [';', '/', '?', ':', '@', '&', '=', '+', '$', '.', '!', '~', '*', '\'', '(', ')'].contains c

/-- The characters of a tag from a place on, after some that are read already, the last first. The count
bounds their number. -/
def uriFrom (full : Bool) : Nat → (read : List (Option Char)) → Cursor →
    Option (List (Option Char) × Cursor)
  | 0, read, c => some (read.reverse, c)
  | n + 1, read, c =>
      match c.rest with
      | '%' :: _ =>
          match escape? c with
          | some (x, c) => uriFrom full n (x :: read) c
          | none => none
      | x :: _ =>
          if isUriChar full x then uriFrom full n (some x :: read) (c.pass 1) else some (read.reverse, c)
      | [] => some (read.reverse, c)

def uri (full : Bool) (c : Cursor) : Option (Tag × Cursor) :=
  match uriFrom full c.rest.length [] c with
  | some ([], _) => none
  | some (cs, c) => some (ofChars cs, c)
  | none => none

/-- A handle: `!`, a name perhaps, and `!` again if it is there. -/
def handle (c : Cursor) : Option (List Char × Cursor) :=
  match c.rest with
  | '!' :: s =>
      let name := s.takeWhile isNameChar
      let c := c.pass (1 + name.length)
      if c.at? '!' then some ('!' :: name ++ ['!'], c.pass 1) else some ('!' :: name, c)
  | _ => none

/-- A tag by its handle and the part after it. The handle is empty for a tag that is written in full,
and for a `!` by itself. -/
def written (flow : Bool) (c : Cursor) : Option (String × Tag × Cursor) := do
  let (h, t, c) ←
    match c.rest with
    | '!' :: '<' :: _ => do
        let (t, c) ← uri true (c.pass 2)
        if c.at? '>' then some ("", t, c.pass 1) else none
    | _ => do
        let (h, c) ← handle c
        if 1 < h.length ∧ h.getLast? = some '!' then
          let (t, c) ← uri false c
          some (String.ofList h, t, c)
        else
          let (cs, c) ← uriFrom false c.rest.length (h.tail.map some).reverse c
          let t := ofChars cs
          if t.text.isEmpty then some ("", ⟨"!", true⟩, c) else some ("!", t, c)
  if startsBlank c.rest ∨ (flow ∧ c.at? ',') then some (h, t, c) else none

end Tag

inductive Directive where
  | version (major minor : Nat)
  /-- A handle stands for the start of a tag. -/
  | tag (handle : String) (stem : Tag)
  deriving DecidableEq, Repr

namespace Directive

def versionNumber (c : Cursor) : Option (Nat × Cursor) :=
  let digits := c.rest.takeWhile Char.isDigit
  if digits.isEmpty ∨ 9 < digits.length then none
  else some (digits.foldl (fun n d => 10 * n + (d.toNat - '0'.toNat)) 0, c.pass digits.length)

def versionValue (c : Cursor) : Option (Directive × Cursor) := do
  let (major, c) ← versionNumber (c.passWhile isSpace)
  if c.at? '.' then
    let (minor, c) ← versionNumber (c.pass 1)
    some (.version major minor, c)
  else none

/-- The handle after `%TAG` and what it stands for. -/
def tagValue (c : Cursor) : Option (Directive × Cursor) := do
  let (h, c) ← Tag.handle (c.passWhile isSpace)
  if (h = ['!'] ∨ h.getLast? = some '!') ∧ c.rest.head?.any isSpace then
    let (stem, c) ← Tag.uri true (c.passWhile isSpace)
    if startsBlank c.rest then some (.tag (String.ofList h) stem, c) else none
  else none

/-- A directive from its `%` on, with the line it stands on. -/
def written (c : Cursor) : Option (Directive × Cursor) := do
  let c := c.pass 1
  let name := c.rest.takeWhile isNameChar
  let c := c.pass name.length
  let (d, c) ←
    if !startsBlank c.rest then none
    else if name = "YAML".toList then versionValue c
    else if name = "TAG".toList then tagValue c
    else none
  return (d, ← c.endOfLine)

end Directive

end CodeOutline.Yaml
