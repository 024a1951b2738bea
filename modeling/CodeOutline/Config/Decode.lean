import CodeOutline.Config.Basic
import CodeOutline.Config.Fault

/-!
# Config.Decode — settings read from YAML

Written settings are a mapping from field names to values. The items are taken in order, and the first
fault counts. Every field may be left out and then has its default; a field given twice is a fault, and
a name that is no field is passed over with what belongs to it. A choice is written as its word, or as a
tag with nothing after it; the fixed column is the tag `!fixed` with a number after it.
-/

namespace CodeOutline

open CodeOutline.Yaml

namespace Config

structure Given where
  nesting : Option Nesting := none
  duplicates : Option Duplicates := none
  column : Option ColumnPolicy := none
  debounceMs : Option UInt64 := none
  collapseByDefault : Option Bool := none

def Given.complete (g : Given) : Config :=
  let standard : Config := {}
  { nesting := g.nesting.getD standard.nesting
    duplicates := g.duplicates.getD standard.duplicates
    column := g.column.getD standard.column
    debounceMs := g.debounceMs.getD standard.debounceMs
    collapseByDefault := g.collapseByDefault.getD standard.collapseByDefault }

/-- The fault of a node that is not what was wanted. The end of a collection is no node. -/
def notWanted (field : Option String) (wanted : String) : Event → Fault
  | .scalar given style text =>
      match meaning given.tag style text with
      | .ok m => .shape field (.wrongType (.scalar m) wanted)
      | .error tag => .shape field (.wrongValue (.scalar (.text text)) (describeTag tag))
  | .sequenceStart _ => .shape field (.wrongType .sequence wanted)
  | .mappingStart _ => .shape field (.wrongType .mapping wanted)
  | .sequenceEnd | .mappingEnd | .alias _ => .malformed

/-- Whether the form of a scalar lets it be more than a text: plain, or a literal block with the tag for
what is wanted. -/
def readsAs (wanted : StandardTag) (given : Properties) (style : Style) : Bool :=
  match style with
  | .plain => true
  | .literal => given.tag = some wanted.tag
  | _ => false

def decodeWord (field : Option String) (wanted : String) (e : Event) : Except Fault UInt64 :=
  match e with
  | .scalar given style text =>
      match if readsAs .integer given style then natural? text.toList else none with
      | some n => if n < UInt64.size then .ok n.toUInt64 else .error (notWanted field wanted e)
      | none => .error (notWanted field wanted e)
  | _ => .error (notWanted field wanted e)

def decodeBool (field : Option String) (e : Event) : Except Fault Bool :=
  match e with
  | .scalar given style text =>
      match if readsAs .bool given style then boolOfWord? text else none with
      | some b => .ok b
      | none => .error (notWanted field "a boolean" e)
  | _ => .error (notWanted field "a boolean" e)

/-- Nothing, after a tag that says all. -/
def decodeNothing (field : Option String) (e : Event) : Except Fault Unit :=
  match e with
  | .scalar _ style text =>
      if style = .plain ∧ (text.isEmpty ∨ isNullWord text) then .ok ()
      else .error (.shape field (.wrongValue (.scalar (.text text)) "null"))
  | _ => .error (notWanted field "unit" e)

/-- A choice: `named` takes a word by itself, `tagged` the name of a tag and the node that has it. -/
def decodeChoice (field : Option String) (named : String → Except Fault α)
    (tagged : String → Except Fault α) (e : Event) : Except Fault α :=
  let wanted := "a YAML tag starting with '!'"
  match e with
  | .scalar given _ text =>
      match given.tag.bind Tag.ownName? with
      | some name => tagged name
      | none => named text
  | .sequenceStart given | .mappingStart given =>
      match given.tag.bind Tag.ownName? with
      | some name => tagged name
      | none => .error (notWanted field wanted e)
  | _ => .error (notWanted field wanted e)

/-- A choice among words that need no value. -/
def decodeWordChoice (known : List String) (ofWord? : String → Option α) (field : Option String)
    (e : Event) : Except Fault α :=
  decodeChoice field
    (fun w =>
      match ofWord? w with
      | some a => .ok a
      | none => .error (.shape field (.unknownChoice w known)))
    (fun name =>
      match ofWord? name with
      | some a => (decodeNothing field e).map fun _ => a
      | none => .error (.shape none (.unknownChoice name known)))
    e

/-- A column policy: a word, or `!fixed` and a number. -/
def decodeColumn (field : Option String) (e : Event) : Except Fault ColumnPolicy :=
  decodeChoice field
    (fun w =>
      match ColumnPolicy.ofWord? w with
      | some p => .ok p
      | none =>
          if w = "fixed" then .error (.shape field (.wrongType .bareChoice "newtype variant"))
          else .error (.shape field (.unknownChoice w ColumnPolicy.words)))
    (fun name =>
      match ColumnPolicy.ofWord? name with
      | some p => (decodeNothing field e).map fun _ => p
      | none =>
          if name = "fixed" then (decodeWord field "usize" e).map .fixed
          else .error (.shape none (.unknownChoice name ColumnPolicy.words)))
    e

/-- What an item stands for. What is found by an alias is at the field of the alias. -/
def decodeItem (decode : Option String → Event → Except Fault α) (field : String) :
    Item → Except Fault α
  | .node e => decode (some field) e
  | .again e => (decode (some field) e).mapError (·.within field)

/-- Settings so far and the items after them, or what is wrong. -/
abbrev Decoded := Except Fault (Given × List Item)

def takeField (name shown : String) (old : Option α) (decode : Option String → Event → Except Fault α)
    (set : α → Given) (items : List Item) : Decoded :=
  if old.isSome then .error (.shape none (.repeatedField name))
  else
    match items with
    | [] => .error .malformed
    | i :: rest => (decodeItem decode shown i).map fun a => (set a, rest)

/-- Take in what belongs to a key. In messages the key is called `shown`. -/
def decodeEntry (g : Given) (key shown : String) (items : List Item) : Decoded :=
  match key with
  | "nesting" =>
      takeField key shown g.nesting (decodeWordChoice (Nesting.all.map (·.word)) Nesting.ofWord?)
        (fun a => { g with nesting := some a }) items
  | "duplicates" =>
      takeField key shown g.duplicates
        (decodeWordChoice (Duplicates.all.map (·.word)) Duplicates.ofWord?)
        (fun a => { g with duplicates := some a }) items
  | "column" =>
      takeField key shown g.column decodeColumn (fun a => { g with column := some a }) items
  | "debounce_ms" =>
      takeField key shown g.debounceMs (fun field => decodeWord field "u64")
        (fun a => { g with debounceMs := some a }) items
  | "collapse_by_default" =>
      takeField key shown g.collapseByDefault decodeBool
        (fun a => { g with collapseByDefault := some a }) items
  | _ =>
      match Item.skipNode items with
      | some rest => .ok (g, rest)
      | none => .error .malformed

/-- Take in the entries of a mapping up to its end. A key that is met by an alias has no name to show.
The count bounds their number. -/
def decodeEntries : Nat → Given → List Item → Except Fault Given
  | 0, _, _ => .error .malformed
  | _ + 1, _, [] => .error .malformed
  | _ + 1, g, .node .mappingEnd :: _ => .ok g
  | n + 1, g, .node (.scalar _ _ key) :: rest =>
      match decodeEntry g key key rest with
      | .ok (g, rest) => decodeEntries n g rest
      | .error e => .error e
  | n + 1, g, .again (.scalar _ _ key) :: rest =>
      match decodeEntry g key "?" rest with
      | .ok (g, rest) => decodeEntries n g rest
      | .error e => .error e
  | _ + 1, _, i :: _ => .error (notWanted none "field identifier" i.event)

/-- The settings that a document's items stand for. An empty node leaves everything out. -/
def ofItems : List Item → Except Fault Config
  | .node (.mappingStart _) :: rest =>
      (decodeEntries (rest.length + 1) {} rest).map Given.complete
  | i :: _ =>
      if i.event matches .scalar _ .plain "" then .ok {}
      else .error (notWanted none "struct OutlineConfig" i.event)
  | [] => .error .malformed

/-- The settings written in a text. A text without a document leaves everything out. A fault of shape
counts before a later break in the text. -/
def ofYaml (text : String) : Except Fault Config :=
  match items text with
  | ([], true) => .ok {}
  | (items, whole) =>
      match ofItems items with
      | .ok c => if whole then .ok c else .error .malformed
      | .error e => .error e

end Config

end CodeOutline
