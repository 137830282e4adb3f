/-!
# Positions in a text

A position is a byte offset into the UTF-8 form of a text. `lineColumn` turns an offset into a line
and a column, both counted from one; columns count characters.
-/

namespace Sigil.Text

def byteLength : List Char → Nat
  | [] => 0
  | c :: r => c.utf8Size + byteLength r

@[simp] theorem byteLength_nil : byteLength [] = 0 := rfl

@[simp] theorem byteLength_cons (c : Char) (r : List Char) :
    byteLength (c :: r) = c.utf8Size + byteLength r := rfl

theorem byteLength_pos {s : List Char} (h : s ≠ []) : 0 < byteLength s := by
  obtain ⟨c, r, rfl⟩ := List.exists_cons_of_ne_nil h
  exact Nat.lt_of_lt_of_le (Char.utf8Size_pos c) (Nat.le_add_right _ _)

@[simp] theorem byteLength_append (a b : List Char) :
    byteLength (a ++ b) = byteLength a + byteLength b := by
  induction a with
  | nil => simp
  | cons c a ih => simp [ih, Nat.add_assoc]

/-- Line and column of `offset`, given those of the text's first character at offset `here`. -/
def lineColumnFrom (offset line column here : Nat) : List Char → Nat × Nat
  | [] => (line, column)
  | c :: r =>
    if offset ≤ here then (line, column)
    else if c = '\n' then lineColumnFrom offset (line + 1) 1 (here + c.utf8Size) r
    else lineColumnFrom offset line (column + 1) (here + c.utf8Size) r

/-- Line and column of a byte offset. An offset beyond the end counts as the end, and one inside a
character as the character's end. -/
def lineColumn (text : List Char) (offset : Nat) : Nat × Nat := lineColumnFrom offset 1 1 0 text

theorem lineColumn_zero (text : List Char) : lineColumn text 0 = (1, 1) := by
  cases text <;> simp [lineColumn, lineColumnFrom]

end Sigil.Text
