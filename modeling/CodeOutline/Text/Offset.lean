/-!
# Text.Offset — byte offsets against positions in characters

A declaration is found at a byte offset and shown at a character column. An offset that falls inside
a character or beyond the text has no column (`charsBefore` is `none` there).
-/

namespace CodeOutline.Text

def byteSize : List Char → Nat
  | [] => 0
  | c :: s => c.utf8Size + byteSize s

/-- The number of characters before byte offset `n`, if a character starts there or the text ends
there. -/
def charsBefore : Nat → List Char → Option Nat
  | 0, _ => some 0
  | _ + 1, [] => none
  | n + 1, c :: s =>
      if c.utf8Size ≤ n + 1 then (charsBefore (n + 1 - c.utf8Size) s).map (· + 1) else none

@[simp] theorem byteSize_append (s t : List Char) : byteSize (s ++ t) = byteSize s + byteSize t := by
  induction s with
  | nil => simp [byteSize]
  | cons c s ih => simp [byteSize, ih, Nat.add_assoc]

/-- The offset right after a first part has as many characters before it as that part holds. -/
theorem charsBefore_byteSize (s t : List Char) : charsBefore (byteSize s) (s ++ t) = some s.length := by
  induction s with
  | nil => cases t <;> rfl
  | cons c s ih =>
    obtain ⟨k, hk⟩ := Nat.exists_eq_add_of_lt c.utf8Size_pos
    have split : byteSize (c :: s) = (k + byteSize s) + 1 := by simp only [byteSize]; omega
    have fits : c.utf8Size ≤ k + byteSize s + 1 := by omega
    have less : k + byteSize s + 1 - c.utf8Size = byteSize s := by omega
    simp [split, charsBefore, fits, less, ih]

/-- No offset has more characters before it than the text holds. -/
theorem charsBefore_le_length {n k : Nat} {s : List Char} (found : charsBefore n s = some k) : k ≤ s.length := by
  fun_induction charsBefore n s generalizing k with
  | case1 =>
    obtain rfl := Option.some.inj found
    exact Nat.zero_le _
  | case2 => simp at found
  | case3 n c s fits ih =>
    obtain ⟨j, before, rfl⟩ := Option.map_eq_some_iff.1 found
    have shorter := ih before
    simp only [List.length_cons]
    omega
  | case4 => simp at found

end CodeOutline.Text
