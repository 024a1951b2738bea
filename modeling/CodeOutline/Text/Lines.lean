import CodeOutline.Text.Blank

/-!
# Text.Lines — cutting a text into lines, in two ways

* `pieces` cuts after each of eight line breaks: `\n`, `\r`, `\r\n`, `U+000B`, `U+000C`, `U+0085`,
  `U+2028` and `U+2029`. Each piece keeps its break, and what follows the last break is one more
  piece, so even the empty text has one.
* `fields` cuts at `\n` alone and leaves the breaks out. `plainLines` reads a text by it: no empty
  line after a last `\n`, and no `\r` at the end of a line.

Nothing is lost by cutting: `flatten_pieces` joins the pieces to the text again.
-/

namespace CodeOutline.Text

def isBreak (c : Char) : Bool :=
  c == '\n' || c == '\r' || c == '\u000b' || c == '\u000c' || c == '\u0085' || c == '\u2028' ||
    c == '\u2029'

def onFirst (c : Char) : List (List Char) → List (List Char)
  | [] => [[c]]
  | l :: ls => (c :: l) :: ls

/-- The lines of a text, each with the break that ends it. -/
def pieces : List Char → List (List Char)
  | [] => [[]]
  | '\r' :: '\n' :: s => ['\r', '\n'] :: pieces s
  | c :: s => if isBreak c then [c] :: pieces s else onFirst c (pieces s)

/-- A line without a `\n` or `\r\n` at its end; any other break stays. -/
def trimNewline (line : List Char) : List Char :=
  match line.reverse with
  | '\n' :: '\r' :: r => r.reverse
  | '\n' :: r => r.reverse
  | _ => line

/-- The parts of a text between the occurrences of a character. -/
def fields (sep : Char) : List Char → List (List Char)
  | [] => [[]]
  | c :: s => if c = sep then [] :: fields sep s else onFirst c (fields sep s)

def dropLastEmpty (ls : List (List Char)) : List (List Char) :=
  if ls.getLast? = some [] then ls.dropLast else ls

/-- The lines of a text cut at `\n`, each without the `\r` characters at its end. -/
def plainLines (s : List Char) : List (List Char) :=
  (dropLastEmpty (fields '\n' s)).map (trimEnd (· == '\r'))

theorem flatten_onFirst (c : Char) (ls : List (List Char)) : (onFirst c ls).flatten = c :: ls.flatten := by
  cases ls <;> rfl

/-- The pieces of a text, put together, are the text. -/
theorem flatten_pieces (s : List Char) : (pieces s).flatten = s := by
  fun_induction pieces s with
  | case1 => rfl
  | case2 s ih => simp [ih]
  | case3 c s _ _ ih => simp [ih]
  | case4 c s _ _ ih => simp [flatten_onFirst, ih]

/-- Even the empty text has a piece. -/
theorem pieces_ne_nil (s : List Char) : pieces s ≠ [] := by
  fun_cases pieces s with
  | case1 => nofun
  | case2 => nofun
  | case3 => simp
  | case4 c s => cases pieces s <;> simp [onFirst]

end CodeOutline.Text
