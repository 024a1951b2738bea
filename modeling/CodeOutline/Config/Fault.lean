import CodeOutline.Text.Quoted
import CodeOutline.Yaml.Resolve

/-!
# Config.Fault — what can be wrong with written settings, and the words for it

A text that is no YAML has no further explanation. A value of the wrong shape is named with what was
found and what was wanted, and with the field it belongs to, except where the fault is the field itself
or an unknown tag.
-/

namespace CodeOutline

open CodeOutline.Yaml

namespace Config

/-- What was found in place of what was wanted. -/
inductive Found where
  | scalar (m : Meaning)
  | sequence
  | mapping
  /-- A choice named without the value it needs. -/
  | bareChoice
  deriving DecidableEq, Repr

inductive Cause where
  | wrongType (found : Found) (wanted : String)
  | wrongValue (found : Found) (wanted : String)
  | unknownChoice (word : String) (known : List String)
  | repeatedField (name : String)
  deriving DecidableEq, Repr

/-- Why settings could not be read. -/
inductive Fault where
  /-- The text is no YAML, or not one document of it. -/
  | malformed
  | shape (field : Option String) (cause : Cause)
  deriving DecidableEq, Repr

/-- A fault that is not placed yet, placed at a field. -/
def Fault.within (field : String) : Fault → Fault
  | .shape none cause => .shape (some field) cause
  | f => f

def describeMeaning : Meaning → String
  | .null => "unit value"
  | .bool b => if b then "boolean `true`" else "boolean `false`"
  | .integer i => "integer `" ++ toString i ++ "`"
  | .wideNatural n => "integer `" ++ toString n ++ "` as u128"
  | .wideNegative i => "integer `" ++ toString i ++ "` as i128"
  | .float s => "floating point `" ++ s ++ "`"
  | .text s => "string " ++ Text.quoted s

def describeTag : StandardTag → String
  | .null => "null"
  | .bool => "a boolean"
  | .integer => "an integer"
  | .float => "a float"

def Found.describe : Found → String
  | .scalar m => describeMeaning m
  | .sequence => "sequence"
  | .mapping => "map"
  | .bareChoice => "unit variant"

def describeChoices (known : List String) : String :=
  match known.map fun w => "`" ++ w ++ "`" with
  | [a, b] => a ++ " or " ++ b
  | ws => "one of " ++ ", ".intercalate ws

def Cause.message : Cause → String
  | .wrongType found wanted => "invalid type: " ++ found.describe ++ ", expected " ++ wanted
  | .wrongValue found wanted => "invalid value: " ++ found.describe ++ ", expected " ++ wanted
  | .unknownChoice word known =>
      "unknown variant `" ++ word ++ "`, expected " ++ describeChoices known
  | .repeatedField name => "duplicate field `" ++ name ++ "`"

def Fault.message? : Fault → Option String
  | .malformed => none
  | .shape none cause => some cause.message
  | .shape (some field) cause => some (field ++ ": " ++ cause.message)

end Config

end CodeOutline
