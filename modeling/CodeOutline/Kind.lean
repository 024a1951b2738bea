/-!
# Kind — the kinds of declaration an outline tells apart

Each kind has a word, a label and an icon it is shown by. Classes and functions are the scopes: only
they hold other declarations. Every other kind is a leaf.
-/

namespace CodeOutline

/-- What a line declares. A class may also be a module or a namespace, a type alias also an
interface, and an attribute is a class member or an object key. -/
inductive Kind where
  | classDecl
  | functionDecl
  | variableDecl
  | attributeDecl
  | enumDecl
  | typeDecl
  | eventDecl
  deriving DecidableEq, Repr

namespace Kind

def all : List Kind :=
  [.classDecl, .functionDecl, .variableDecl, .attributeDecl, .enumDecl, .typeDecl, .eventDecl]

def word : Kind → String
  | .classDecl => "class"
  | .functionDecl => "function"
  | .variableDecl => "variable"
  | .attributeDecl => "attribute"
  | .enumDecl => "enum"
  | .typeDecl => "type_alias"
  | .eventDecl => "event"

def ofWord? (w : String) : Option Kind :=
  all.find? (·.word = w)

def label : Kind → String
  | .classDecl => "class"
  | .functionDecl => "fn"
  | .variableDecl => "var"
  | .attributeDecl => "prop"
  | .enumDecl => "enum"
  | .typeDecl => "type"
  | .eventDecl => "event"

def icon : Kind → String
  | .classDecl => "symbol-module"
  | .functionDecl => "symbol-method"
  | .variableDecl => "symbol-variable"
  | .attributeDecl => "symbol-key"
  | .enumDecl => "symbol-enum"
  | .typeDecl => "symbol-value"
  | .eventDecl => "symbol-event"

def isScope : Kind → Bool
  | .classDecl | .functionDecl => true
  | _ => false

end Kind

end CodeOutline
