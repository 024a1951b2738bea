import CodeOutline.Text.Lines
import CodeOutline.Path

/-!
# Document — a text that is edited, and its revisions

A document is a text with the file it came from and a revision that moves on with each edit.

Edits count characters and are cut down to the text, so that a late edit never fails. The revision is a
64-bit word: after the last it starts again at 0.
-/

namespace CodeOutline

open CodeOutline.Text

structure Document where
  text : String := ""
  filePath : Option String := none
  revision : UInt64 := 0
  deriving DecidableEq, Repr

inductive Edit where
  /-- Put a text before the character at an index. -/
  | insert (index : Nat) (text : String)
  /-- Take out the characters from one index to another. -/
  | delete (start stop : Nat)
  | replaceAll (text : String)
  deriving DecidableEq, Repr

/-- The text after an edit. An index past the end counts as the end, and a stretch that ends before
it starts is empty. -/
def Edit.apply (e : Edit) (text : String) : String :=
  match e with
  | .insert index new =>
      String.ofList (text.toList.take index ++ new.toList ++ text.toList.drop index)
  | .delete start stop =>
      String.ofList (text.toList.take start ++ text.toList.drop (max start stop))
  | .replaceAll new => new

namespace Document

/-- The document after an edit, one revision later. -/
def edit (d : Document) (e : Edit) : Document :=
  { d with text := e.apply d.text, revision := d.revision + 1 }

/-- The number of lines: as many as there are line breaks, and one more. -/
def lineCount (d : Document) : Nat := (pieces d.text.toList).length

/-- The line at an index, if there is one. Of the breaks only `\n` and `\r\n` are taken off a line; any
other stays at its end. -/
def lineAt? (d : Document) (i : Nat) : Option String :=
  (pieces d.text.toList)[i]?.map fun p => String.ofList (trimNewline p)

def lineLength (d : Document) (i : Nat) : Nat := ((d.lineAt? i).map String.length).getD 0

def charCount (d : Document) : Nat := d.text.length

def displayName (d : Document) : String :=
  (d.filePath.bind Path.fileName?).getD "Untitled"

end Document

end CodeOutline
