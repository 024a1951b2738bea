import CodeOutline.Yaml.Token

/-!
# Yaml.Event — the nodes of a document in the order they are met

An event is a scalar, or the start or the end of a sequence or a mapping. Events are read off the tokens
by a machine with a stack of goals. The goal on top says what must come next, and is replaced by the
goals that what comes leaves open. Reading stops where no goal fits and where the tokens give out, and
the events before are kept.
-/

namespace CodeOutline.Yaml

/-- What a node may be given besides its content. -/
structure Properties where
  anchor : Option String := none
  tag : Option Tag := none
  deriving DecidableEq, Repr

def Properties.isEmpty (p : Properties) : Bool := p.anchor.isNone && p.tag.isNone

/-- One thing met in a document. -/
inductive Event where
  | scalar (given : Properties) (style : Style) (text : String)
  | sequenceStart (given : Properties)
  | sequenceEnd
  | mappingStart (given : Properties)
  | mappingEnd
  /-- The node with this anchor again. -/
  | alias (name : String)
  deriving DecidableEq, Repr

def Event.absent (given : Properties) : Event := .scalar given .plain ""

/-- What has to be read next. -/
inductive Goal where
  /-- A node: outside brackets or inside, and outside perhaps with its items in the column of a key. -/
  | node (block beside : Bool)
  /-- The items of a block sequence, up to its end. -/
  | items
  /-- The items of a sequence in the column of its key, as far as they go. -/
  | itemsBeside
  /-- The keys of a block mapping, up to its end. -/
  | keys
  /-- The value of a key in a block mapping. -/
  | value
  /-- The items in brackets, up to the closing one; the first has no comma before it. -/
  | flowItems (first : Bool)
  /-- A key by itself as an item in brackets, its value, and the end of both. -/
  | pairKey
  | pairValue
  | pairEnd
  /-- The keys in braces, up to the closing one. -/
  | flowKeys (first : Bool)
  /-- The value of a key in braces. -/
  | flowValue
  /-- The value of a node in braces that is no key. -/
  | flowAbsent
  deriving DecidableEq, Repr

abbrev Handles := List (String × Tag)

def standardHandles : Handles := [("!", ⟨"!", true⟩), ("!!", ⟨"tag:yaml.org,2002:", true⟩)]

namespace Handles

/-- The tag that a handle and the part after it make; without a handle it is that part. -/
def tag? (handles : Handles) (handle : String) (rest : Tag) : Option Tag :=
  if handle.isEmpty then some rest else (handles.lookup handle).map (·.append rest)

end Handles

/-- An anchor and a tag, in either order, each at most once. `none` for a handle that is not known. -/
def properties (handles : Handles) : List Token → Option (Properties × List Token)
  | .anchor a :: .tag h t :: ts => (handles.tag? h t).map fun tag => (⟨some a, some tag⟩, ts)
  | .tag h t :: .anchor a :: ts => (handles.tag? h t).map fun tag => (⟨some a, some tag⟩, ts)
  | .anchor a :: ts => some (⟨some a, none⟩, ts)
  | .tag h t :: ts => (handles.tag? h t).map fun tag => (⟨none, some tag⟩, ts)
  | ts => some ({}, ts)

/-- What one step of the machine leaves: an event perhaps, the goals, and the tokens. -/
abbrev Outcome := Option (Option Event × List Goal × List Token)

def endsBlockNode : Token → Bool
  | .key | .value | .blockEnd => true
  | _ => false

/-- Read a node. -/
def readNode (handles : Handles) (block beside : Bool) (goals : List Goal) (tokens : List Token) : Outcome :=
  match tokens with
  | .alias name :: ts => some (some (.alias name), goals, ts)
  | tokens =>
      match properties handles tokens with
      | none => none
      | some (given, ts) =>
          match ts with
          | [] => none
          | .scalar style text :: ts => some (some (.scalar given style text), goals, ts)
          | .flowSequence :: ts => some (some (.sequenceStart given), .flowItems true :: goals, ts)
          | .flowMapping :: ts => some (some (.mappingStart given), .flowKeys true :: goals, ts)
          | t :: ts =>
              if beside ∧ t = .item then some (some (.sequenceStart given), .itemsBeside :: goals, t :: ts)
              else if block ∧ t = .blockSequence then some (some (.sequenceStart given), .items :: goals, ts)
              else if block ∧ t = .blockMapping then some (some (.mappingStart given), .keys :: goals, ts)
              else if given.isEmpty then none
              else some (some (.absent given), goals, t :: ts)

/-- A node, or an absent one if a token that ends it comes first. -/
def nodeOrAbsent (ends : Token → Bool) (node : Goal) (goals : List Goal) : List Token → Outcome
  | [] => none
  | t :: ts => if ends t then some (some (.absent {}), goals, t :: ts) else some (none, node :: goals, t :: ts)

def readFlowItem (goals : List Goal) : List Token → Outcome
  | .flowSequenceEnd :: ts => some (some .sequenceEnd, goals, ts)
  | .key :: ts => some (some (.mappingStart {}), .pairKey :: goals, ts)
  | ts => some (none, .node false false :: .flowItems false :: goals, ts)

def readFlowKey (goals : List Goal) : List Token → Outcome
  | .flowMappingEnd :: ts => some (some .mappingEnd, goals, ts)
  | .key :: ts =>
      nodeOrAbsent (fun t => t = .value ∨ t = .comma ∨ t = .flowMappingEnd) (.node false false)
        (.flowValue :: goals) ts
  | ts => some (none, .node false false :: .flowAbsent :: goals, ts)

/-- Pursue a goal. -/
def pursue (handles : Handles) (goals : List Goal) (tokens : List Token) : Goal → Outcome
  | .node block beside => readNode handles block beside goals tokens
  | .items =>
      match tokens with
      | .item :: ts =>
          nodeOrAbsent (fun t => t = .item ∨ t = .blockEnd) (.node true false) (.items :: goals) ts
      | .blockEnd :: ts => some (some .sequenceEnd, goals, ts)
      | _ => none
  | .itemsBeside =>
      match tokens with
      | [] => none
      | .item :: ts =>
          nodeOrAbsent (fun t => t = .item ∨ endsBlockNode t) (.node true false) (.itemsBeside :: goals) ts
      | ts => some (some .sequenceEnd, goals, ts)
  | .keys =>
      match tokens with
      | .key :: ts => nodeOrAbsent endsBlockNode (.node true true) (.value :: goals) ts
      | .blockEnd :: ts => some (some .mappingEnd, goals, ts)
      | _ => none
  | .value =>
      match tokens with
      | [] => none
      | .value :: ts => nodeOrAbsent endsBlockNode (.node true true) (.keys :: goals) ts
      | ts => some (some (.absent {}), .keys :: goals, ts)
  | .flowItems first =>
      match tokens with
      | .flowSequenceEnd :: ts => some (some .sequenceEnd, goals, ts)
      | .comma :: ts => if first then none else readFlowItem goals ts
      | ts => if first then readFlowItem goals ts else none
  | .pairKey =>
      match tokens with
      | [] => none
      | t :: ts =>
          if t = .value ∨ t = .comma ∨ t = .flowSequenceEnd then
            some (some (.absent {}), .pairValue :: goals, ts)
          else some (none, .node false false :: .pairValue :: goals, t :: ts)
  | .pairValue =>
      match tokens with
      | [] => none
      | .value :: ts =>
          nodeOrAbsent (fun t => t = .comma ∨ t = .flowSequenceEnd) (.node false false) (.pairEnd :: goals) ts
      | ts => some (some (.absent {}), .pairEnd :: goals, ts)
  | .pairEnd =>
      match tokens with
      | [] => none
      | ts => some (some .mappingEnd, .flowItems false :: goals, ts)
  | .flowKeys first =>
      match tokens with
      | .flowMappingEnd :: ts => some (some .mappingEnd, goals, ts)
      | .comma :: ts => if first then none else readFlowKey goals ts
      | ts => if first then readFlowKey goals ts else none
  | .flowValue =>
      match tokens with
      | [] => none
      | .value :: ts =>
          nodeOrAbsent (fun t => t = .comma ∨ t = .flowMappingEnd) (.node false false)
            (.flowKeys false :: goals) ts
      | ts => some (some (.absent {}), .flowKeys false :: goals, ts)
  | .flowAbsent =>
      match tokens with
      | [] => none
      | ts => some (some (.absent {}), .flowKeys false :: goals, ts)

/-- Pursue goals until none is left: the events, the last first, and the tokens that are left, or none
if the goals cannot be reached. The count bounds the number of steps. -/
def pursueAll (handles : Handles) : Nat → (read : List Event) → List Goal → List Token →
    List Event × Option (List Token)
  | _, read, [], ts => (read, some ts)
  | 0, read, _ :: _, _ => (read, none)
  | n + 1, read, goal :: goals, ts =>
      match pursue handles goals ts goal with
      | none => (read, none)
      | some (e, goals, ts) => pursueAll handles n (e.toList ++ read) goals ts

/-- Take in the directives of a document. A version is given once at most and is 1.1 or 1.2, and a handle
is given once at most. -/
def directives : (versioned : Bool) → Handles → List Token → Option (Handles × List Token)
  | versioned, handles, .directive (.version major minor) :: ts =>
      if versioned ∨ major ≠ 1 ∨ (minor ≠ 1 ∧ minor ≠ 2) then none else directives true handles ts
  | versioned, handles, .directive (.tag h stem) :: ts =>
      if (handles.lookup h).isSome then none else directives versioned (handles ++ [(h, stem)]) ts
  | _, handles, ts => some (handles ++ standardHandles, ts)

def endsDocument : Token → Bool
  | .directive _ | .documentStart | .documentEnd | .textEnd => true
  | _ => false

/-- The events of a document from the start of its content, and whether nothing but ends follows it. -/
def contentEvents (handles : Handles) (tokens : List Token) : List Event × Bool :=
  match pursueAll handles (8 * tokens.length + 8) [] [.node true false] tokens with
  | (read, some rest) => (read.reverse, rest.dropWhile (· = .documentEnd) = [.textEnd])
  | (read, none) => (read.reverse, false)

/-- The events of the one document of a text, up to where it breaks off if it does; the answer says
whether it is whole. A text without a document has no events. -/
def documentEvents (tokens : List Token) : List Event × Bool :=
  match tokens with
  | [] => ([], false)
  | [.textEnd] => ([], true)
  | t :: ts =>
      if t matches .directive _ | .documentStart then
        match directives false [] (t :: ts) with
        | some (handles, .documentStart :: u :: us) =>
            if endsDocument u then
              ([.absent {}], (u :: us).dropWhile (· = .documentEnd) = [.textEnd])
            else contentEvents handles (u :: us)
        | _ => ([], false)
      else contentEvents standardHandles (t :: ts)

end CodeOutline.Yaml
