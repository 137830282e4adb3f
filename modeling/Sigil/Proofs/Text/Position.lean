import Sigil.Text.Position

/-!
# Lines of offsets

A later offset is on the same line or a later one (`line_mono`). A text that is put in front of
another moves the other's lines down by its own line feeds, and the columns of its first line by
what stands behind the last of them (`lineColumn_append`).
-/

namespace Sigil.Text

theorem le_lineColumnFrom (offset line column here : Nat) (s : List Char) :
    line ≤ (lineColumnFrom offset line column here s).1 := by
  induction s generalizing line column here with
  | nil => exact Nat.le_refl line
  | cons c s ih =>
    rw [lineColumnFrom]
    split
    · exact Nat.le_refl line
    · split
      · exact Nat.le_trans (Nat.le_succ line) (ih (line + 1) 1 _)
      · exact ih line _ _

theorem lineColumnFrom_mono {a b : Nat} (h : a ≤ b) (line column here : Nat) (s : List Char) :
    (lineColumnFrom a line column here s).1 ≤ (lineColumnFrom b line column here s).1 := by
  induction s generalizing line column here with
  | nil => exact Nat.le_refl line
  | cons c s ih =>
    by_cases ha : a ≤ here
    · rw [lineColumnFrom, if_pos ha]
      exact le_lineColumnFrom b line column here (c :: s)
    · have hb : ¬ b ≤ here := by omega
      rw [lineColumnFrom, lineColumnFrom, if_neg ha, if_neg hb]
      split
      · exact ih _ _ _
      · exact ih _ _ _

theorem line_mono {a b : Nat} (h : a ≤ b) (text : List Char) :
    (lineColumn text a).1 ≤ (lineColumn text b).1 := lineColumnFrom_mono h 1 1 0 text

/-! ## Texts in front -/

/-- The lines that a text moves down what stands behind it. -/
def lineFeeds (p : List Char) : Nat := p.count '\n'

def endColumn (p : List Char) : Nat := (lineColumn p (byteLength p)).2

/-- Where a line and column are when the text `p` is put in front. -/
def lineColumnBehind (p : List Char) (x : Nat × Nat) : Nat × Nat :=
  (lineFeeds p + x.1, if x.1 = 1 then endColumn p - 1 + x.2 else x.2)

theorem lineColumnFrom_cons {offset here : Nat} (h : here < offset) (line column : Nat) (c : Char)
    (s : List Char) :
    lineColumnFrom offset line column here (c :: s) =
      if c = '\n' then lineColumnFrom offset (line + 1) 1 (here + c.utf8Size) s
      else lineColumnFrom offset line (column + 1) (here + c.utf8Size) s := by
  rw [lineColumnFrom, if_neg (Nat.not_le.2 h)]

theorem lineColumnFrom_append (offset line column here : Nat) (p s : List Char) :
    lineColumnFrom (here + byteLength p + offset) line column here (p ++ s) =
      lineColumnFrom (here + byteLength p + offset)
        (lineColumnFrom (here + byteLength p) line column here p).1
        (lineColumnFrom (here + byteLength p) line column here p).2 (here + byteLength p) s := by
  induction p generalizing line column here with
  | nil => rfl
  | cons c p ih =>
    have hpos := Char.utf8Size_pos c
    rw [List.cons_append, byteLength_cons, ← Nat.add_assoc, lineColumnFrom_cons (by omega),
      lineColumnFrom_cons (by omega)]
    split
    · exact ih (line + 1) 1 (here + c.utf8Size)
    · exact ih line (column + 1) (here + c.utf8Size)

theorem line_lineColumnFrom (line column here : Nat) (p : List Char) :
    (lineColumnFrom (here + byteLength p) line column here p).1 = line + lineFeeds p := by
  induction p generalizing line column here with
  | nil => rfl
  | cons c p ih =>
    have hpos := Char.utf8Size_pos c
    rw [byteLength_cons, ← Nat.add_assoc, lineColumnFrom_cons (by omega), lineFeeds,
      List.count_cons]
    split
    · rename_i hc
      rw [ih, if_pos (beq_iff_eq.2 hc), Nat.add_assoc, Nat.add_comm 1]
      rfl
    · rename_i hc
      rw [ih, if_neg (by simpa using hc)]
      rfl

theorem endColumn_pos (p : List Char) : 0 < endColumn p := by
  have general : ∀ (offset line column here : Nat) (s : List Char), 0 < column →
      0 < (lineColumnFrom offset line column here s).2 := by
    intro offset line column here s h
    induction s generalizing line column here with
    | nil => exact h
    | cons c s ih =>
      rw [lineColumnFrom]
      split
      · exact h
      · split
        · exact ih _ _ _ Nat.one_pos
        · exact ih _ _ _ (Nat.succ_pos column)
  exact general _ 1 1 0 p Nat.one_pos

theorem lineColumnFrom_add (n offset line column here : Nat) (s : List Char) :
    lineColumnFrom (n + offset) line column (n + here) s =
      lineColumnFrom offset line column here s := by
  induction s generalizing line column here with
  | nil => rfl
  | cons c s ih =>
    simp only [lineColumnFrom, Nat.add_le_add_iff_left, Nat.add_assoc n, ih]

/-- Lines and the columns of the first line count from anywhere. -/
theorem lineColumnFrom_behind (p : List Char) (offset : Nat) {line : Nat} (column here : Nat)
    (s : List Char) (h : 0 < line) :
    lineColumnFrom offset (lineColumnBehind p (line, column)).1
        (lineColumnBehind p (line, column)).2 here s =
      lineColumnBehind p (lineColumnFrom offset line column here s) := by
  induction s generalizing line column here with
  | nil => rfl
  | cons c s ih =>
    simp only [lineColumnFrom]
    split
    · rfl
    · split
      · have := ih 1 (here + c.utf8Size) (Nat.succ_pos line)
        rwa [lineColumnBehind, if_neg (by omega : line + 1 ≠ 1)] at this
      · have := ih (column + 1) (here + c.utf8Size) h
        rw [← this, lineColumnBehind, lineColumnBehind]
        split <;> rfl

/-- Line and column of an offset in a text that stands behind another. -/
theorem lineColumn_append (p s : List Char) (offset : Nat) :
    lineColumn (p ++ s) (byteLength p + offset) = lineColumnBehind p (lineColumn s offset) := by
  have hend : lineColumnFrom (0 + byteLength p) 1 1 0 p = lineColumnBehind p (1, 1) := by
    refine Prod.ext ?_ ?_
    · rw [line_lineColumnFrom]
      exact Nat.add_comm _ _
    · rw [lineColumnBehind, if_pos rfl, Nat.sub_add_cancel (endColumn_pos p), Nat.zero_add]
      rfl
  have happend := lineColumnFrom_append offset 1 1 0 p s
  rw [hend, Nat.zero_add] at happend
  calc lineColumn (p ++ s) (byteLength p + offset)
      = lineColumnFrom (byteLength p + offset) (lineColumnBehind p (1, 1)).1
          (lineColumnBehind p (1, 1)).2 (byteLength p + 0) s := happend
    _ = lineColumnFrom offset (lineColumnBehind p (1, 1)).1 (lineColumnBehind p (1, 1)).2 0 s :=
        lineColumnFrom_add ..
    _ = lineColumnBehind p (lineColumn s offset) := lineColumnFrom_behind p offset 1 0 s Nat.one_pos

end Sigil.Text
