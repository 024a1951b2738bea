import CodeOutline.Line.Rules
import CodeOutline.Proofs.Ink

/-!
# Proofs.PaddedRules — blanks around a line do not disturb the standard rules

Each rule finds the same name, as much further on as the blanks before the line are wide
(`follows_standard`).

Five rules look for a keyword, and there `Keyed` is what has to be shown. A variable is judged by what
follows its name; whether `==` does is all that is left of it (`variableNamed`). Members and attributes are
read from the indentation on, so the blanks before the line are skipped with it, and only those after it are
left to think of (`memberHere`, `attributeHere`).
-/

namespace CodeOutline.Line

set_option autoImplicit false

open CodeOutline.Text

/-! ## Rules that look for a keyword -/

section Keywords

variable {α : Type}

theorem keyed_keywordName {keywords : List String} (solid : ∀ w ∈ keywords, Solid w)
    {k : List Char → List Char → Option α} (steady : ∀ name, Steady (k name)) :
    Keyed fun s => (keywordName keywords s).bind fun r => k r.1 r.2 := by
  have keyed : Keyed fun s => (afterAny keywords someBlanks s).bind fun r =>
      (identifier r.2).bind fun r => k r.1 r.2 :=
    keyed_keyword solid (steady_identifier steady) rfl
  simpa only [keywordName, Option.bind_assoc] using keyed

theorem keyed_declared {keywords : List String} (solid : ∀ w ∈ keywords, Solid w) :
    Keyed fun s => (keywordName keywords s).map (·.1) := by
  have keyed := keyed_keywordName solid (k := fun name _ => some name) fun _ _ _ _ => rfl
  simpa only [Option.map_eq_bind, Function.comp_def] using keyed

theorem keyed_enumHere : Keyed enumHere := by
  have body : ∀ name : List Char,
      Steady fun s => if (skipBlanks s).head? = some '{' then some name else none := by
    intro name s t same
    obtain ⟨left, right⟩ | ⟨c, s', t', left, right, -⟩ := same.skipBlanks_cases
    · simp only [left, right]
    · simp only [left, right, List.head?_cons]
  have unfolded : enumHere = fun s => (keywordName ["enum"] s).bind fun r =>
      if (skipBlanks r.2).head? = some '{' then some r.1 else none := by
    funext s
    unfold enumHere
    cases keywordName ["enum"] s <;> rfl
  rw [unfolded]
  exact keyed_keywordName (by decide) body

theorem isEventType_of_isBlank {c : Char} (blank : isBlank c = true) : isEventType c = false := by
  have no_sign : (['.', '<', '>', ',', '[', ']'].contains c) = false :=
    eq_false_of_isBlank (p := (['.', '<', '>', ',', '[', ']'].contains ·)) (by decide) blank
  simp_all [isEventType, isNameRest_of_isBlank blank]

theorem steady_eventEnd (name : List Char) : Steady fun s : List Char =>
    match skipBlanks s with
    | ';' :: _ | '{' :: _ | '=' :: _ => some name
    | _ => none := by
  intro s t same
  obtain ⟨left, right⟩ | ⟨c, s', t', left, right, -⟩ := same.skipBlanks_cases
  · simp only [left, right]
  · simp only [left, right]
    split <;> split <;> simp_all

theorem keyed_eventHere : Keyed eventHere := by
  have typed : Steady fun s : List Char =>
      (guard (!(s.takeWhile isEventType).isEmpty) : Option Unit).bind fun _ =>
        (someBlanks (s.dropWhile isEventType)).bind fun s => (identifier s).bind fun r =>
          match skipBlanks r.2 with
          | ';' :: _ | '{' :: _ | '=' :: _ => some r.1
          | _ => none := by
    intro s t same
    have same_type : s.takeWhile isEventType = t.takeWhile isEventType :=
      same.takeWhile_eq fun _ => isEventType_of_isBlank
    have named := steady_someBlanks (steady_identifier steady_eventEnd) rfl (same.dropWhile isEventType)
    simp only [same_type, named]
  exact keyed_keyword (by decide) typed rfl

def variableNamed (s : List Char) : Option (List Char × Bool) :=
  (variableHere s).map fun r => (r.1, (afterWord ['=', '='] (skipBlanks r.2)).isSome)

theorem findVariable_eq (line : String) :
    findVariable line = (leftmost variableNamed true line.toList).bind fun r =>
      if String.ofList r.2.1 = "enum" ∨ r.2.2 then none
      else some ⟨String.ofList r.2.1, byteSize r.1⟩ := by
  unfold findVariable variableNamed
  rw [leftmost_map]
  cases leftmost variableHere true line.toList <;> rfl

theorem keyed_variableNamed : Keyed variableNamed := by
  have compared : Steady fun s => (afterWord ['=', '='] (skipBlanks s)).isSome := by
    intro s t same
    have asked : ∀ r, (afterWord ['=', '='] r).isSome =
        ((afterWord ['=', '='] r).bind fun _ => some ()).isSome := fun r => by
      cases afterWord ['=', '='] r <;> rfl
    have followed := steady_afterWord (w := ['=', '=']) (by decide) (k := fun _ => some ())
      (fun _ _ _ => rfl) same.skipBlanks
    simpa only [asked] using congrArg Option.isSome followed
  have unfolded : variableNamed = fun s => (keywordName ["const", "let", "var"] s).bind fun r =>
      some (r.1, (afterWord ['=', '='] (skipBlanks r.2)).isSome) := by
    funext s
    exact Option.map_eq_bind
  rw [unfolded]
  exact keyed_keywordName (by decide) (k := fun name s =>
    some (name, (afterWord ['=', '='] (skipBlanks s)).isSome)) fun name _ _ same =>
      congrArg (fun b => some (name, b)) (compared same)

theorem steady_functionGap {k : List Char → Option α} (steady : Steady k) (nothing : k [] = none) :
    Steady fun s => (functionGap s).bind k := by
  intro s t same
  have plain := steady_someBlanks steady nothing same
  obtain ⟨left, right⟩ | ⟨c, s', t', left, right, rest⟩ := same.skipBlanks_cases
  · simpa only [functionGap, left, right] using plain
  · by_cases star : c = '*'
    · subst star
      simp only [functionGap, left, right, Option.bind_some, steady rest.skipBlanks]
    · simp only [functionGap, left, right]
      split <;> split <;> simp_all

theorem steady_opensParameters : Steady opensParameters := by
  refine .of_first (fun s faint => ?_) fun c s t same => ?_
  · unfold opensParameters
    split
    · exact absurd rfl (ne_of_isBlank faint.head (by decide))
    · rfl
  · unfold opensParameters
    split <;> split <;> simp_all

theorem keyed_onlyWord {w : String} (solid : Solid w) {gap k : List Char → Option (List Char)}
    (steady : Steady fun s => (gap s).bind k) :
    Keyed fun s => (afterAny [w] gap s).bind fun r => k r.2 := by
  have after_word : ∀ s, ((afterAny [w] gap s).bind fun r => k r.2) =
      (afterWord w.toList s).bind fun s => (gap s).bind k := by
    intro s
    rw [← Option.bind_assoc]
    simp only [afterAny, List.findSome?_cons]
    cases (afterWord w.toList s).bind gap <;> rfl
  constructor
  · intro s t same
    simp only [after_word]
    exact steady_afterWord solid.2 steady same
  · intro s faint
    rw [afterAny_eq_none (by simpa using solid) faint, Option.bind_none]

theorem keyed_functionHere : Keyed functionHere := by
  have parameters : ∀ name : List Char,
      Steady fun s => (afterTypeParameters opensParameters s).bind fun _ => some name := by
    intro name s t same
    simp only [steady_afterTypeParameters steady_opensParameters same]
  have named : Steady fun s : List Char => (identifier s).bind fun r =>
      (afterTypeParameters opensParameters r.2).bind fun _ => some r.1 := steady_identifier parameters
  exact keyed_onlyWord (by decide) (steady_functionGap named rfl)

end Keywords

/-! ## Members and attributes -/

section Members

variable {α : Type} {s t : List Char}

theorem steady_opensBody : Steady opensBody := by
  have inside : ∀ c, isBlank c = true → (c != '{' && c != ';') = true := by
    intro c blank
    simp [ne_of_isBlank blank (d := '{') (by decide), ne_of_isBlank blank (d := ';') (by decide)]
  intro s t same
  unfold opensBody
  obtain ⟨left, right⟩ | ⟨c, s', t', left, right, rest⟩ := same.skipBlanks_cases
  · simp only [left, right]
  · simp only [left, right]
    by_cases colon : c = ':'
    · subst colon
      obtain ⟨left, right⟩ | ⟨d, s', t', left, right, -, result⟩ := rest.dropWhile_cases inside
      · simp [left, right]
      · simp only [left, right, result]
        split <;> split <;> simp_all
    · split <;> split <;> simp_all

theorem steady_parametersAndBody : Steady parametersAndBody := by
  have inside : ∀ c, isBlank c = true → (c != ')') = true := by
    intro c blank
    simp [ne_of_isBlank blank (d := ')') (by decide)]
  refine .of_first (fun s faint => ?_) fun c s t same => ?_
  · unfold parametersAndBody
    split
    · exact absurd rfl (ne_of_isBlank faint.head (by decide))
    · rfl
  · by_cases opening : c = '('
    · subst opening
      simp only [parametersAndBody]
      obtain ⟨left, right⟩ | ⟨d, s', t', left, right, body, -⟩ := same.dropWhile_cases inside
      · simp only [left, right]
      · simp only [left, right]
        by_cases closing : d = ')'
        · subst closing
          exact steady_opensBody body
        · split <;> split <;> simp_all
    · simp only [parametersAndBody]
      split <;> split <;> simp_all

def pastMark (mark : Char) (f : List Char → List Char) : List Char → List Char
  | [] => []
  | c :: s => if c = mark then f s else c :: s

theorem pastMark_eq_self {mark : Char} (f : List Char → List Char) (other : ∀ r, s ≠ mark :: r) :
    pastMark mark f s = s := by
  cases s with
  | nil => rfl
  | cons c s =>
      have differs : c ≠ mark := fun same => other s (by rw [same])
      simp [pastMark, differs]

theorem SameInk.pastMark {mark : Char} (ink : isBlank mark = false) {f : List Char → List Char}
    (keeps : ∀ ⦃s t⦄, SameInk s t → SameInk (f s) (f t)) (same : SameInk s t) :
    SameInk (pastMark mark f s) (pastMark mark f t) := by
  have of_blank : ∀ {r : List Char}, Blank r → Line.pastMark mark f r = r := fun blank =>
    pastMark_eq_self f fun r starts => by
      subst starts
      simp [blank.head] at ink
  cases same with
  | blank left right =>
      rw [of_blank left, of_blank right]
      exact .blank left right
  | cons c rest =>
      simp only [Line.pastMark]
      split
      · exact keeps rest
      · exact .cons c rest

/-- A member is named by an identifier, perhaps after `*`, or by its last modifier. -/
theorem memberName_eq (last : Option String) (s : List Char) :
    memberName last s =
      (identifier (pastMark '*' skipBlanks s)).or (last.map fun w => (w.toList, s)) := by
  unfold memberName
  split
  · rename_i r
    show _ = (identifier (skipBlanks r)).or _
    cases found : identifier (skipBlanks r) <;> simp [found]
  · rename_i other
    rw [pastMark_eq_self skipBlanks fun r starts => other r starts]
    cases found : identifier s <;> simp [found]

/-- An attribute is named by an identifier, perhaps with `?` after it, or by its last modifier. -/
theorem attributeName_eq (last : Option String) (s : List Char) :
    attributeName last s =
      ((identifier s).map fun r => (r.1, pastMark '?' id r.2)).or (last.map fun w => (w.toList, s)) := by
  unfold attributeName
  split <;> rename_i found <;> simp only [found]
  · rfl
  · rename_i r other
    simp only [Option.map_some, Option.some_or]
    rw [pastMark_eq_self id fun r' starts => other r.1 r' (by rw [← starts])]
  · rfl

theorem steady_identifier_map {k : List Char → List Char → Option α}
    (steady : ∀ name, Steady (k name)) : Steady fun s => (identifier s).map fun r => k r.1 r.2 := by
  have bound := steady_identifier (k := fun name s => some (k name s)) fun name s t same =>
    congrArg some (steady name same)
  simpa only [Option.map_eq_bind, Function.comp_def] using bound

/-- Where a name is found in one of two ways, what follows it goes on as after each. -/
theorem steady_or {f g : List Char → Option (List Char × List Char)}
    {k : List Char → List Char → Option α}
    (steady : Steady fun s => (f s).map fun r => k r.1 r.2)
    (steady' : Steady fun s => (g s).map fun r => k r.1 r.2) :
    Steady fun s => ((f s).or (g s)).bind fun r => k r.1 r.2 := by
  intro s t same
  have joined : ∀ o : Option (List Char × List Char),
      (o.bind fun r => k r.1 r.2) = (o.map fun r => k r.1 r.2).join := fun o => by cases o <;> rfl
  have left : ((f s).map fun r => k r.1 r.2) = (f t).map fun r => k r.1 r.2 := steady same
  have right : ((g s).map fun r => k r.1 r.2) = (g t).map fun r => k r.1 r.2 := steady' same
  simp only [joined, Option.map_or, left, right]

theorem steady_lastModifier {k : List Char → List Char → Option α} (steady : ∀ name, Steady (k name))
    (last : Option String) :
    Steady fun s => (last.map fun w => (w.toList, s)).map fun r => k r.1 r.2 := by
  intro s t same
  cases last with
  | none => rfl
  | some w => exact congrArg some (steady w.toList same)

theorem steady_memberName {k : List Char → List Char → Option α} (steady : ∀ name, Steady (k name))
    (last : Option String) : Steady fun s => (memberName last s).bind fun r => k r.1 r.2 := by
  have named : Steady fun s => (identifier (pastMark '*' skipBlanks s)).map fun r => k r.1 r.2 :=
    fun _ _ same => steady_identifier_map steady (same.pastMark (by decide) fun _ _ rest => rest.skipBlanks)
  simpa only [memberName_eq] using steady_or named (steady_lastModifier steady last)

theorem steady_attributeName {k : List Char → List Char → Option α} (steady : ∀ name, Steady (k name))
    (last : Option String) : Steady fun s => (attributeName last s).bind fun r => k r.1 r.2 := by
  have named : Steady fun s => (identifier s).map fun r => k r.1 (pastMark '?' id r.2) :=
    steady_identifier_map (k := fun name s => k name (pastMark '?' id s)) fun name _ _ same =>
      steady name (same.pastMark (by decide) fun _ _ rest => rest)
  have either := steady_or (f := fun s => (identifier s).map fun r => (r.1, pastMark '?' id r.2))
    (by simpa only [Option.map_map, Function.comp_def] using named) (steady_lastModifier steady last)
  simpa only [attributeName_eq] using either

def memberHere (s : List Char) : Option (List Char) :=
  (memberName (modifiers memberModifiers s).1 (modifiers memberModifiers s).2).bind fun r =>
    (afterTypeParameters parametersAndBody r.2).bind fun _ =>
      if controlKeywords.contains (String.ofList r.1) then none else some r.1

theorem findMember_eq (line : String) :
    findMember line = (memberHere (skipBlanks line.toList)).map fun name =>
      ⟨String.ofList name, byteSize (line.toList.takeWhile isBlank)⟩ := by
  simp only [findMember, memberHere, Option.map_bind, Function.comp_def, apply_ite (Option.map _),
    Option.map_none, Option.map_some]
  rfl

theorem steady_memberHere : Steady memberHere := by
  have body : ∀ name : List Char, Steady fun s => (afterTypeParameters parametersAndBody s).bind fun _ =>
      if controlKeywords.contains (String.ofList name) then none else some name := by
    intro name s t same
    simp only [steady_afterTypeParameters steady_parametersAndBody same]
  have named : ∀ w ∈ memberModifiers,
      identifier (pastMark '*' skipBlanks w.toList) = some (w.toList, []) := by decide +kernel
  refine AfterModifiers.steady_modifiers ⟨by decide, steady_memberName body, ?_, ?_⟩
  · intro last
    cases last <;> rfl
  · intro w member last
    rw [memberName_eq, named w member]
    rfl

def attributeHere (s : List Char) : Option (List Char) :=
  (attributeName (modifiers attributeModifiers s).1 (modifiers attributeModifiers s).2).bind fun r =>
    match skipBlanks r.2 with
    | op :: rest =>
        match skipBlanks rest with
        | next :: _ => if givesValue op next then some r.1 else none
        | [] => none
    | [] => none

theorem findAttribute_eq (line : String) :
    findAttribute line = (attributeHere (skipBlanks line.toList)).map fun name => ⟨String.ofList name, 0⟩ := by
  simp only [findAttribute, attributeHere, Option.map_bind, Function.comp_def]
  refine congrArg (Option.bind _) (funext fun r => ?_)
  cases skipBlanks r.2 with
  | nil => rfl
  | cons op rest =>
      cases given : skipBlanks rest with
      | nil => simp only [given, Option.map_none]
      | cons next _ => cases value : givesValue op next <;> simp [given, value]

theorem steady_attributeHere : Steady attributeHere := by
  have value : ∀ name : List Char, Steady fun s : List Char =>
      match skipBlanks s with
      | op :: rest =>
          match skipBlanks rest with
          | next :: _ => if givesValue op next then some name else none
          | [] => none
      | [] => none := by
    intro name s t same
    obtain ⟨left, right⟩ | ⟨op, s', t', left, right, rest⟩ := same.skipBlanks_cases
    · simp only [left, right]
    · obtain ⟨left', right'⟩ | ⟨next, s'', t'', left', right', -⟩ := rest.skipBlanks_cases
      · simp only [left, right, left', right']
      · simp only [left, right, left', right']
  have named : ∀ w ∈ attributeModifiers, identifier w.toList = some (w.toList, []) := by decide +kernel
  refine AfterModifiers.steady_modifiers ⟨by decide, steady_attributeName value, ?_, ?_⟩
  · intro last
    cases last <;> rfl
  · intro w member last
    rw [attributeName_eq, named w member]
    rfl

end Members

/-! ## One line -/

structure Padding where
  left : String
  right : String
  blankLeft : Blank left.toList
  blankRight : Blank right.toList

def Padding.around (p : Padding) (line : String) : String := p.left ++ line ++ p.right

theorem Padding.toList_around (p : Padding) (line : String) :
    (p.around line).toList = p.left.toList ++ line.toList ++ p.right.toList := by
  simp [around]

theorem Padding.skipBlanks_around (p : Padding) (line : String) :
    SameInk (skipBlanks line.toList) (skipBlanks (p.around line).toList) := by
  have dropped : skipBlanks (p.around line).toList = skipBlanks (line.toList ++ p.right.toList) := by
    rw [toList_around, List.append_assoc]
    exact List.dropWhile_append_of_pos p.blankLeft
  rw [dropped]
  exact (SameInk.append line.toList p.blankRight).skipBlanks

theorem Padding.takeWhile_around (p : Padding) {line : String} (ink : ¬ Blank line.toList) :
    (p.around line).toList.takeWhile isBlank = p.left.toList ++ line.toList.takeWhile isBlank := by
  rw [toList_around, List.append_assoc, List.takeWhile_append_of_pos p.blankLeft,
    (SameInk.append line.toList p.blankRight).takeWhile_isBlank_eq ink]

/-- Where a declaration starts once blanks are put around its line: an attribute still starts with the
line, and the others further on. -/
def Occurrence.moved (kind : Kind) (p : Padding) (m : Occurrence) : Occurrence :=
  if kind = .attributeDecl then m else { m with start := byteSize p.left.toList + m.start }

/-- A rule that blanks around the line do not disturb. -/
structure Rule.Follows (r : Rule) : Prop where
  moves : ∀ (p : Padding) (line : String), r.find (p.around line) = (r.find line).map (.moved r.kind p)
  starts : ∀ (line : String) (m : Occurrence), r.find line = some m →
    ∃ before rest, line.toList = before ++ rest ∧ m.start = byteSize before ∧
      (r.kind = .attributeDecl → before = [])
  nothing : r.find "" = none

theorem follows_occurrence {here : List Char → Option (List Char)} (keyed : Keyed here) {kind : Kind}
    (keyword : kind ≠ .attributeDecl) : Rule.Follows ⟨kind, occurrence here⟩ where
  moves p line := by
    simp only [occurrence, Padding.toList_around, leftmost_padded keyed p.blankLeft p.blankRight,
      Option.map_map, Function.comp_def, Occurrence.moved, if_neg keyword, byteSize_append]
  starts line m found := by
    obtain ⟨⟨before, name⟩, place, rfl⟩ := Option.map_eq_some_iff.1 found
    obtain ⟨rest, cut⟩ := leftmost_spec place
    exact ⟨before, rest, cut, rfl, fun same => absurd same keyword⟩
  nothing := rfl

theorem Rule.Follows.or {kind : Kind} {first second : String → Option Occurrence}
    (left : Rule.Follows ⟨kind, first⟩) (right : Rule.Follows ⟨kind, second⟩) :
    Rule.Follows ⟨kind, fun line => (first line).or (second line)⟩ where
  moves p line := by
    rw [Option.map_or, ← left.moves p line, ← right.moves p line]
  starts line m found := by
    rcases Option.or_eq_some_iff.1 found with found | ⟨-, found⟩
    · exact left.starts line m found
    · exact right.starts line m found
  nothing := by
    rw [Option.or_eq_none_iff]
    exact ⟨left.nothing, right.nothing⟩

theorem follows_member : Rule.Follows ⟨.functionDecl, findMember⟩ where
  moves p line := by
    simp only [findMember_eq]
    rw [← steady_memberHere (p.skipBlanks_around line)]
    cases found : memberHere (skipBlanks line.toList) with
    | none => rfl
    | some name =>
        have ink : ¬ Blank line.toList := fun blank => by
          rw [show skipBlanks line.toList = [] from blank.dropWhile_eq_nil fun _ h => h] at found
          cases found
        simp [Occurrence.moved, p.takeWhile_around ink]
  starts line m found := by
    simp only [findMember_eq] at found
    obtain ⟨name, -, rfl⟩ := Option.map_eq_some_iff.1 found
    exact ⟨_, _, (takeWhile_append_skipBlanks line.toList).symm, rfl, nofun⟩
  nothing := rfl

theorem follows_attribute : Rule.Follows ⟨.attributeDecl, findAttribute⟩ where
  moves p line := by
    simp only [findAttribute_eq]
    rw [← steady_attributeHere (p.skipBlanks_around line), Option.map_map]
    rfl
  starts line m found := by
    simp only [findAttribute_eq] at found
    obtain ⟨name, -, rfl⟩ := Option.map_eq_some_iff.1 found
    exact ⟨[], line.toList, rfl, rfl, fun _ => rfl⟩
  nothing := rfl

theorem follows_variable : Rule.Follows ⟨.variableDecl, findVariable⟩ where
  moves p line := by
    simp only [findVariable_eq, Padding.toList_around,
      leftmost_padded keyed_variableNamed p.blankLeft p.blankRight]
    cases leftmost variableNamed true line.toList with
    | none => rfl
    | some r =>
        simp only [Option.map_some, Option.bind_some, byteSize_append]
        split <;> rfl
  starts line m found := by
    simp only [findVariable_eq] at found
    obtain ⟨⟨before, name, compared⟩, place, taken⟩ := Option.bind_eq_some_iff.1 found
    obtain ⟨rest, cut⟩ := leftmost_spec place
    refine ⟨before, rest, cut, ?_, nofun⟩
    split at taken
    · cases taken
    · cases taken
      rfl
  nothing := rfl

theorem follows_standard : ∀ r ∈ standardRules, r.Follows := by
  intro r member
  simp only [standardRules, List.mem_cons, List.not_mem_nil, or_false] at member
  rcases member with rfl | rfl | rfl | rfl | rfl | rfl | rfl
  · exact follows_occurrence (keyed_declared (by decide)) (by decide)
  · exact (follows_occurrence keyed_functionHere (by decide)).or follows_member
  · exact follows_variable
  · exact follows_attribute
  · exact follows_occurrence keyed_enumHere (by decide)
  · exact follows_occurrence (keyed_declared (by decide)) (by decide)
  · exact follows_occurrence keyed_eventHere (by decide)

end CodeOutline.Line
