import CodeOutline.Tree

/-!
# Session.Command — what a session asks its host to do after a message
-/

namespace CodeOutline

inductive RevealMode where
  | center
  /-- Only when it is out of view. -/
  | minimal
  deriving DecidableEq, Repr

def RevealMode.word : RevealMode → String
  | .center => "center"
  | .minimal => "minimal"

def RevealMode.ofWord? (w : String) : Option RevealMode :=
  [RevealMode.center, .minimal].find? (·.word = w)

/-- A request to the host. -/
inductive Command where
  | none
  /-- Draw the panel again. -/
  | redraw
  /-- Show the new outline from its roots on. -/
  | refreshOutline
  /-- Wait so many milliseconds, then say that the refresh for this revision is due. -/
  | debounce (revision delayMs : UInt64)
  /-- Move the caret to a place and show it. -/
  | reveal (position : Position) (mode : RevealMode)
  | batch (commands : List Command)

namespace Command

def ofOption (c : Option Command) : Command := c.getD .none

mutual

/-- Whether the panel has to be drawn again. A wait does not ask for it yet; a revealed place does,
because the selection follows the caret. -/
def needsRedraw : Command → Bool
  | .none => false
  | .redraw => true
  | .refreshOutline => true
  | .debounce _ _ => false
  | .reveal _ _ => true
  | .batch cs => anyNeedsRedraw cs

def anyNeedsRedraw : List Command → Bool
  | [] => false
  | c :: cs => needsRedraw c || anyNeedsRedraw cs

end

mutual

/-- Whether the outline itself is a new one. -/
def refreshesOutline : Command → Bool
  | .refreshOutline => true
  | .batch cs => anyRefreshesOutline cs
  | _ => false

def anyRefreshesOutline : List Command → Bool
  | [] => false
  | c :: cs => refreshesOutline c || anyRefreshesOutline cs

end

end Command

end CodeOutline
