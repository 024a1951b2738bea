/-!
# Report.Value — JSON values as they are written to a report

Members stand in the order given, each on a line of its own, two spaces deeper than what holds it.

Only what JSON demands is escaped: quotes, backslashes and the control characters below `U+0020`, five
of them by a letter and the others by four hexadecimal digits.
-/

namespace CodeOutline.Report

/-- A JSON value whose numbers are natural. -/
inductive Value where
  | null
  | bool (b : Bool)
  | number (n : Nat)
  | text (s : String)
  | array (items : List Value)
  | object (fields : List (String × Value))

namespace Value

def ofOption (f : α → Value) : Option α → Value
  | some a => f a
  | none => .null

/-- A character inside a quoted text. -/
def escape (c : Char) : List Char :=
  if c = '"' then ['\\', '"']
  else if c = '\\' then ['\\', '\\']
  else if c = '\n' then ['\\', 'n']
  else if c = '\r' then ['\\', 'r']
  else if c = '\t' then ['\\', 't']
  else if c = '\x08' then ['\\', 'b']
  else if c = '\x0c' then ['\\', 'f']
  else if c.toNat < 32 then
    ['\\', 'u', '0', '0', Nat.digitChar (c.toNat / 16), Nat.digitChar (c.toNat % 16)]
  else [c]

def quote (s : String) : String :=
  "\"" ++ String.ofList (s.toList.flatMap escape) ++ "\""

def newLine (depth : Nat) : String :=
  "\n" ++ String.ofList (List.replicate (2 * depth) ' ')

/-- Lines between an opening and a closing mark; without lines the marks stand together. -/
def enclose (opening closing : String) (depth : Nat) (lines : List String) : String :=
  if lines.isEmpty then opening ++ closing
  else
    opening ++ ",".intercalate (lines.map (newLine (depth + 1) ++ ·)) ++ newLine depth ++ closing

mutual

def renderAt (depth : Nat) : Value → String
  | .null => "null"
  | .bool b => if b then "true" else "false"
  | .number n => toString n
  | .text s => quote s
  | .array items => enclose "[" "]" depth (renderItems (depth + 1) items)
  | .object fields => enclose "\x7b" "\x7d" depth (renderFields (depth + 1) fields)

def renderItems (depth : Nat) : List Value → List String
  | [] => []
  | v :: vs => renderAt depth v :: renderItems depth vs

def renderFields (depth : Nat) : List (String × Value) → List String
  | [] => []
  | f :: fs => renderField depth f :: renderFields depth fs

def renderField (depth : Nat) : String × Value → String
  | (name, v) => quote name ++ ": " ++ renderAt depth v

end

def render (v : Value) : String := renderAt 0 v

end Value

end CodeOutline.Report
