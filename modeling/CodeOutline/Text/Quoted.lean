import CodeOutline.Text.Unseen

/-!
# Text.Quoted — texts in quotes for messages

All that cannot be seen is written out. Quotes, backslashes, tabs, line ends and `U+0000` have an escape
of a letter. Other characters that have no sight of their own are written as `\u` and their number in
braces.
-/

namespace CodeOutline.Text

/-- A character as it stands in a quoted text. -/
def escapeUnseen (c : Char) : String :=
  if c = '"' then "\\\""
  else if c = '\\' then "\\\\"
  else if c = '\n' then "\\n"
  else if c = '\r' then "\\r"
  else if c = '\t' then "\\t"
  else if c = '\x00' then "\\0"
  else if isUnseen c then "\\u\x7b" ++ String.ofList (Nat.toDigits 16 c.toNat) ++ "\x7d"
  else c.toString

def quoted (s : String) : String :=
  "\"" ++ String.join (s.toList.map escapeUnseen) ++ "\""

end CodeOutline.Text
