import CodeOutline.Kind
import CodeOutline.Line.Scan
import CodeOutline.Text.Offset

/-!
# Line.Rules — the standard declaration rules

A rule looks for its kind of declaration in one line and, where it finds one, gives the declared name
and the byte offset the declaration starts at. Most rules look for a keyword anywhere in the line and
take the leftmost place that fits (`leftmost`); members and attributes are read from the indentation
on. What a rule then refuses, such as a comparison in place of a declaration, is refused for the whole
line: no later place is tried.

A modifier may itself be a name. In `get (x) {` the word `get` is what is declared, because no
identifier follows it; the last modifier stands in whenever what follows is no identifier.
-/

namespace CodeOutline.Line

open CodeOutline.Text

/-- Where a rule found a declaration: the declared name, and the byte offset it starts at. -/
structure Occurrence where
  name : String
  start : Nat
  deriving DecidableEq, Repr

structure Rule where
  kind : Kind
  find : String → Option Occurrence

/-- The leftmost occurrence of a declaration that `here` reads the name of. -/
def occurrence (here : List Char → Option (List Char)) (line : String) : Option Occurrence :=
  (leftmost here true line.toList).map fun r => ⟨String.ofList r.2, byteSize r.1⟩

/-- An identifier after one of some keywords and blanks, and what follows it. -/
def keywordName (keywords : List String) (s : List Char) : Option (List Char × List Char) :=
  (afterAny keywords someBlanks s).bind fun r => identifier r.2

def findClass (line : String) : Option Occurrence :=
  occurrence (fun s => (keywordName ["class", "namespace", "module"] s).map (·.1)) line

def findType (line : String) : Option Occurrence :=
  occurrence (fun s => (keywordName ["interface", "type"] s).map (·.1)) line

/-- `enum`, a name and `{`. -/
def enumHere (s : List Char) : Option (List Char) :=
  match keywordName ["enum"] s with
  | some (name, r) => if (skipBlanks r).head? = some '{' then some name else none
  | none => none

def findEnum (line : String) : Option Occurrence :=
  occurrence enumHere line

def isEventType (c : Char) : Bool :=
  isNameRest c || c == '.' || c == '<' || c == '>' || c == ',' || c == '[' || c == ']'

/-- `event`, a type, a name, and one of `;`, `{` and `=`. -/
def eventHere (s : List Char) : Option (List Char) := do
  let (_, s) ← afterAny ["event"] someBlanks s
  guard (!(s.takeWhile isEventType).isEmpty)
  let s ← someBlanks (s.dropWhile isEventType)
  let (name, s) ← identifier s
  match skipBlanks s with
  | ';' :: _ | '{' :: _ | '=' :: _ => some name
  | _ => none

def findEvent (line : String) : Option Occurrence :=
  occurrence eventHere line

def variableHere (s : List Char) : Option (List Char × List Char) :=
  keywordName ["const", "let", "var"] s

/-- `const`, `let` or `var`, and a name. The leftmost place counts: if the name there is `enum`, or
`==` follows it, the line declares no variable. -/
def findVariable (line : String) : Option Occurrence :=
  match leftmost variableHere true line.toList with
  | some (before, name, rest) =>
      if String.ofList name = "enum" ∨ (afterWord ['=', '='] (skipBlanks rest)).isSome then none
      else some ⟨String.ofList name, byteSize before⟩
  | none => none

/-- What may stand between `function` and the name: blanks, or a `*` with blanks around it. -/
def functionGap (s : List Char) : Option (List Char) :=
  match skipBlanks s with
  | '*' :: r => some (skipBlanks r)
  | _ => someBlanks s

def opensParameters : List Char → Option Unit
  | '(' :: _ => some ()
  | _ => none

/-- `function`, perhaps a `*`, a name, perhaps type parameters, and `(`. -/
def functionHere (s : List Char) : Option (List Char) := do
  let (_, s) ← afterAny ["function"] functionGap s
  let (name, s) ← identifier s
  let _ ← afterTypeParameters opensParameters s
  some name

def findFree (line : String) : Option Occurrence :=
  occurrence functionHere line

/-- A body follows: `{`, or `:`, a result type of at least one character and `{`. -/
def opensBody (s : List Char) : Option Unit :=
  match skipBlanks s with
  | '{' :: _ => some ()
  | ':' :: r =>
      match r.takeWhile (fun c => c != '{' && c != ';'), r.dropWhile (fun c => c != '{' && c != ';') with
      | _ :: _, '{' :: _ => some ()
      | _, _ => none
  | _ => none

/-- A parameter list up to its first `)`, and a body after it. -/
def parametersAndBody : List Char → Option Unit
  | '(' :: s =>
      match s.dropWhile (· != ')') with
      | ')' :: r => opensBody r
      | _ => none
  | _ => none

def memberModifiers : List String :=
  ["public", "private", "protected", "static", "async", "abstract", "override", "readonly", "get",
   "set"]

/-- Words that read like a member function's name and are statements. -/
def controlKeywords : List String :=
  ["if", "for", "while", "switch", "catch", "with", "return", "function", "do", "else", "typeof",
   "new", "await", "yield", "super", "this"]

/-- The name of a member function and what follows it, from the end of the modifiers on: an
identifier, perhaps after `*`, or else the last modifier. -/
def memberName (last : Option String) (s : List Char) : Option (List Char × List Char) :=
  let named := match s with
    | '*' :: r => skipBlanks r
    | _ => s
  match identifier named with
  | some r => some r
  | none => last.map fun w => (w.toList, s)

/-- A function written as a member: modifiers, a name, perhaps type parameters, parameters, perhaps a
result type, and `{`. It starts after the indentation. -/
def findMember (line : String) : Option Occurrence := do
  let body := skipBlanks line.toList
  let (last, s) := modifiers memberModifiers body
  let (name, s) ← memberName last s
  let _ ← afterTypeParameters parametersAndBody s
  if controlKeywords.contains (String.ofList name) then none
  else some ⟨String.ofList name, byteSize (line.toList.takeWhile isBlank)⟩

/-- A function with the keyword, anywhere in the line, goes before one written as a member. -/
def findFunction (line : String) : Option Occurrence :=
  (findFree line).or (findMember line)

def attributeModifiers : List String :=
  ["private", "public", "protected", "static", "readonly", "declare", "abstract", "override"]

/-- The name of an attribute and what follows it, from the end of the modifiers on: an identifier,
perhaps with `?` after it, or else the last modifier. -/
def attributeName (last : Option String) (s : List Char) : Option (List Char × List Char) :=
  match identifier s with
  | some (name, '?' :: r) => some (name, r)
  | some r => some r
  | none => last.map fun w => (w.toList, s)

/-- Whether an operator and the first character of what follows it declare an attribute: not in `==`,
`=>` and `::`, and not when nothing but `;` follows. -/
def givesValue (op next : Char) : Bool :=
  next != ';' &&
    ((op == '=' && next != '=' && next != '>') || (op == ':' && next != ':'))

/-- An attribute: modifiers, a name, `:` or `=`, and what it is given. It starts with the line. -/
def findAttribute (line : String) : Option Occurrence := do
  let (last, s) := modifiers attributeModifiers (skipBlanks line.toList)
  let (name, s) ← attributeName last s
  match skipBlanks s with
  | op :: r =>
      match skipBlanks r with
      | next :: _ => if givesValue op next then some ⟨String.ofList name, 0⟩ else none
      | [] => none
  | [] => none

def standardRules : List Rule :=
  [⟨.classDecl, findClass⟩, ⟨.functionDecl, findFunction⟩, ⟨.variableDecl, findVariable⟩,
   ⟨.attributeDecl, findAttribute⟩, ⟨.enumDecl, findEnum⟩, ⟨.typeDecl, findType⟩,
   ⟨.eventDecl, findEvent⟩]

end CodeOutline.Line
