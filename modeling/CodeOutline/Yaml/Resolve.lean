import CodeOutline.Number.Binary64
import CodeOutline.Yaml.Item

/-!
# Yaml.Resolve — what a scalar stands for

A plain scalar is null, a truth value, a whole number or a decimal if it has the form of one, tried in
this order; every other scalar is a text. Whole numbers are decimal without a zero in front, or follow
`0x`, `0o` or `0b`, with a sign perhaps. They are told apart by the size of the word they fit.

The standard tags for null, truth values, whole numbers and decimals say what a scalar is, in quotes too,
and its text must have the form. A tag of the document's own leaves the meaning as it is, and any other
tag makes a text of it.
-/

namespace CodeOutline.Yaml

/-- The meaning of a scalar. -/
inductive Meaning where
  | null
  | bool (b : Bool)
  /-- A whole number that fits 64 bits. -/
  | integer (i : Int)
  /-- A number too large for 64 bits that fits 128 bits without a sign. -/
  | wideNatural (n : Nat)
  /-- A number too far below zero for 64 bits that fits 128 bits. -/
  | wideNegative (i : Int)
  /-- A decimal, as it is written out after being read. -/
  | float (text : String)
  | text (s : String)
  deriving DecidableEq, Repr

def isNullWord (s : String) : Bool :=
  ["null", "Null", "NULL", "~"].contains s

def boolOfWord? (s : String) : Option Bool :=
  if ["true", "True", "TRUE"].contains s then some true
  else if ["false", "False", "FALSE"].contains s then some false
  else none

def naturalOf? (base : Nat) (s : List Char) : Option Nat :=
  if s.isEmpty then none
  else s.foldlM (fun n c => (digitValue? c).bind fun d => if d < base then some (base * n + d) else none) 0

/-- Several digits of which the first is zero are no number. -/
def hasLeadingZero (s : List Char) : Bool :=
  let digits := match s with
    | '-' :: r | '+' :: r => r
    | _ => s
  1 < digits.length && digits.head? == some '0' && digits.all Char.isDigit

/-- The base that a number's first characters announce, and its digits. -/
def basedDigits : List Char → Nat × List Char
  | '0' :: 'x' :: r => (16, r)
  | '0' :: 'o' :: r => (8, r)
  | '0' :: 'b' :: r => (2, r)
  | s => (10, s)

def natural? (s : List Char) : Option Nat :=
  let digits := match s with
    | '+' :: r => r
    | _ => s
  if hasLeadingZero s then none else naturalOf? (basedDigits digits).1 (basedDigits digits).2

def negated? : List Char → Option Nat
  | '-' :: s => if hasLeadingZero s then none else naturalOf? (basedDigits s).1 (basedDigits s).2
  | _ => none

/-- The meaning of a whole number, as far as 128 bits hold it. -/
def integer? (s : List Char) : Option Meaning :=
  match natural? s, negated? s with
  | some n, _ =>
      if n < Nat.pow 2 64 then some (.integer n)
      else if n < Nat.pow 2 128 then some (.wideNatural n) else none
  | none, some n =>
      if n ≤ Nat.pow 2 63 then some (.integer (-n))
      else if n ≤ Nat.pow 2 127 then some (.wideNegative (-n)) else none
  | none, none => none

/-- A decimal as it is written out: the words for the infinities and for no number, or digits. -/
def float? (s : List Char) : Option String :=
  let unsigned := match s with
    | '+' :: r => r
    | _ => s
  let word := String.ofList unsigned
  if [".inf", ".Inf", ".INF"].contains word then some "inf"
  else if ["-.inf", "-.Inf", "-.INF"].contains (String.ofList s) then some "-inf"
  else if [".nan", ".NaN", ".NAN"].contains (String.ofList s) then some "NaN"
  else if s.head? = some '+' ∧ (unsigned.head? = some '+' ∨ unsigned.head? = some '-') then none
  else Number.floatText? unsigned

/-- The meaning of a plain scalar. -/
def meaningOfPlain (s : String) : Meaning :=
  if s.isEmpty || isNullWord s then .null
  else
    match boolOfWord? s with
    | some b => .bool b
    | none =>
        match integer? s.toList with
        | some m => m
        | none =>
            match if hasLeadingZero s.toList then none else float? s.toList with
            | some f => .float f
            | none => .text s

inductive StandardTag where
  | null
  | bool
  | integer
  | float
  deriving DecidableEq, Repr

namespace StandardTag

def all : List StandardTag := [.null, .bool, .integer, .float]

def tag : StandardTag → Tag
  | .null => ⟨"tag:yaml.org,2002:null", true⟩
  | .bool => ⟨"tag:yaml.org,2002:bool", true⟩
  | .integer => ⟨"tag:yaml.org,2002:int", true⟩
  | .float => ⟨"tag:yaml.org,2002:float", true⟩

def ofTag? (t : Tag) : Option StandardTag := all.find? (·.tag = t)

/-- The meaning of a text with a standard tag, if it has the form. -/
def meaning? (s : String) : StandardTag → Option Meaning
  | .null => if isNullWord s then some .null else none
  | .bool => (boolOfWord? s).map .bool
  | .integer => integer? s.toList
  | .float => (float? s.toList).map .float

end StandardTag

def Tag.isOwn (t : Tag) : Bool := t.text.toList.head? == some '!'

/-- The name that a tag of the document's own gives. A `!` by itself is its own name. -/
def Tag.ownName? (t : Tag) : Option String :=
  if !t.readable then none
  else
    match t.text.toList with
    | ['!'] => some "!"
    | '!' :: name => some (String.ofList name)
    | _ => none

/-- The meaning of a scalar. An error is the standard tag whose form its text does not have. -/
def meaning (tag : Option Tag) (style : Style) (s : String) : Except StandardTag Meaning :=
  let asWritten : Meaning := if style = .plain then meaningOfPlain s else .text s
  match tag with
  | none => .ok asWritten
  | some t =>
      match StandardTag.ofTag? t with
      | some standard =>
          match standard.meaning? s with
          | some m => .ok m
          | none => .error standard
      | none => .ok (if t.isOwn then asWritten else .text s)

end CodeOutline.Yaml
