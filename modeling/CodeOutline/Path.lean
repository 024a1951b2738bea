import CodeOutline.Text.Lines

/-!
# Path — file paths as texts

The parts of a path are divided by `/` and joined without being tidied up. Empty parts and the part `.`
say nothing and are passed over when the last part of a path is asked for.
-/

namespace CodeOutline.Path

open CodeOutline.Text

def isAbsolute (p : String) : Bool :=
  p.toList.head? == some '/'

/-- A path below a base: a `/` between the two unless the base is empty or ends in one. A path that
starts at the root stands for itself. -/
def join (base path : String) : String :=
  if isAbsolute path then path
  else if base.isEmpty || base.toList.getLast? == some '/' then base ++ path
  else base ++ "/" ++ path

/-- The parts of a path that say something. -/
def parts (p : String) : List String :=
  ((fields '/' p.toList).map String.ofList).filter fun s => s != "" && s != "."

/-- The name of the file a path leads to; none when it leads to the root or one step up. -/
def fileName? (p : String) : Option String :=
  (parts p).getLast?.filter (· != "..")

/-- The first parts of a text that end right before a `/`, and the text itself, shortest first. -/
def initialParts : List Char → List (List Char)
  | [] => [[]]
  | c :: s =>
      let longer := (initialParts s).map (c :: ·)
      if c = '/' then [] :: longer else longer

/-- A path and every path on the way to it, shortest first. -/
def ancestors (p : String) : List String :=
  ((initialParts p.toList).filter (!·.isEmpty)).map String.ofList

/-- The path one step up: without the last part and the `/` before it. -/
def parent (p : String) : String :=
  let trimmed := trimEnd (· == '/') p.toList
  let up := trimEnd (· == '/') (trimEnd (· != '/') trimmed)
  if up.isEmpty && isAbsolute p then "/" else String.ofList up

end CodeOutline.Path
