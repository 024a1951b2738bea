/-!
# Text.Blank — blank characters

A character is blank when it has the Unicode property `White_Space`. Five of them are line breaks of
their own (`U+000B`, `U+000C`, `U+0085`, `U+2028`, `U+2029`), and the zero-width space `U+200B` and the
byte order mark `U+FEFF` are not among them.
-/

namespace CodeOutline.Text

def wideBlanks : List Char :=
  ['\u0085', '\u00a0', '\u1680', '\u2000', '\u2001', '\u2002', '\u2003', '\u2004', '\u2005',
   '\u2006', '\u2007', '\u2008', '\u2009', '\u200a', '\u2028', '\u2029', '\u202f', '\u205f',
   '\u3000']

/-- Blank characters: tab to carriage return, space, and the wide blanks. -/
def isBlank (c : Char) : Bool :=
  c == ' ' || ('\t' ≤ c && c ≤ '\r') || wideBlanks.contains c

def skipBlanks (s : List Char) : List Char :=
  s.dropWhile isBlank

def indent (s : List Char) : Nat :=
  (s.takeWhile isBlank).length

/-- The text without the characters of a class that stand at its end. -/
def trimEnd (p : Char → Bool) (s : List Char) : List Char :=
  (s.reverse.dropWhile p).reverse

theorem takeWhile_append_skipBlanks (s : List Char) : s.takeWhile isBlank ++ skipBlanks s = s :=
  List.takeWhile_append_dropWhile

end CodeOutline.Text
