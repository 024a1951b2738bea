import CodeOutline.Builder
import CodeOutline.LineSource

/-!
# Navigation — from a source to its outline, and back to places in the source

A place is clamped: a line past the end becomes the last line, and a column past the end of its line
becomes the end. So a node of an old outline still leads somewhere in the text, though its declaration
may have gone.
-/

namespace CodeOutline

open LineSource

variable {α : Type} [LineSource α]

def outlineOf (source : α) (config : Config) (revision : UInt64) : Outline :=
  (Builder.ofConfig config).build (lines source) revision

/-- The nearest place inside a source; an empty source has only the origin. -/
def clamp (p : Position) (source : α) : Position :=
  if lineCount source = 0 then .origin
  else
    let line := min p.line (lineCount source - 1)
    ⟨line, min p.column (lineLength source line)⟩

def resolve (n : Node) (source : α) : Position :=
  clamp n.position source

end CodeOutline
