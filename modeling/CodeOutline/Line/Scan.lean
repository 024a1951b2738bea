import CodeOutline.Text.Blank
import CodeOutline.Text.Word

/-!
# Line.Scan — the small recognisers that the declaration rules are made of

Each takes the text at some place of a line and gives what is left after the part it recognises, or
`none`. Every run of characters is taken whole: no rule needs a blank or an identifier cut short,
because what has to follow never starts with a character of the run. The one place where more than one
end is tried is the closing `>` of type parameters (`closeAngle`).
-/

namespace CodeOutline.Line

open CodeOutline.Text

def afterWord : List Char → List Char → Option (List Char)
  | [], s => some s
  | _ :: _, [] => none
  | w :: ws, c :: s => if w = c then afterWord ws s else none

/-- The first of some words that the text starts with, if what follows satisfies `next`. -/
def afterAny (words : List String) (next : List Char → Option α) (s : List Char) :
    Option (String × α) :=
  words.findSome? fun w => ((afterWord w.toList s).bind next).map (w, ·)

def someBlanks : List Char → Option (List Char)
  | [] => none
  | c :: s => if isBlank c then some (skipBlanks s) else none

def isNameStart (c : Char) : Bool :=
  c.isAlpha || c == '_' || c == '$'

def isNameRest (c : Char) : Bool :=
  isWord c || c == '$'

/-- An identifier, as long as it goes, and what follows it. -/
def identifier : List Char → Option (List Char × List Char)
  | [] => none
  | c :: s =>
      if isNameStart c then some (c :: s.takeWhile isNameRest, s.dropWhile isNameRest) else none

/-- The leftmost place where `here` recognises the text and no word character stands right before:
what precedes that place, and what was recognised. `fresh` says that the text is at such a place. -/
def leftmost (here : List Char → Option α) : (fresh : Bool) → List Char → Option (List Char × α)
  | _, [] => none
  | fresh, c :: s =>
      match if fresh then here (c :: s) else none with
      | some a => some ([], a)
      | none => (leftmost here (!isWord c) s).map fun r => (c :: r.1, r.2)

/-- Try `next` after each `>` in turn, as far as the line goes. -/
def closeAngle (next : List Char → Option α) : List Char → Option α
  | [] => none
  | c :: s =>
      if c = '\n' then none
      else if c = '>' then (next s).or (closeAngle next s)
      else closeAngle next s

/-- Go on with `next` after blanks and, if they are there, type parameters `<…>` and more blanks. -/
def afterTypeParameters (next : List Char → Option α) (s : List Char) : Option α :=
  match skipBlanks s with
  | '<' :: r => closeAngle (fun t => next (skipBlanks t)) r
  | r => next r

/-- Modifiers that each end in blanks: the last of them, and what follows. The count bounds their
number. -/
def modifiersUpTo (words : List String) : Nat → Option String → List Char → Option String × List Char
  | 0, last, s => (last, s)
  | n + 1, last, s =>
      match afterAny words someBlanks s with
      | some (w, r) => modifiersUpTo words n (some w) r
      | none => (last, s)

/-- All the modifiers a text starts with: the last of them, and what follows. -/
def modifiers (words : List String) (s : List Char) : Option String × List Char :=
  modifiersUpTo words s.length none s

end CodeOutline.Line
