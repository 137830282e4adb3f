import Mathlib.Data.List.DropRight
import Sigil.Proofs.Text.Position

/-!
# Lines and columns count characters

Line and column of an offset count the characters that start before it: the line feeds among them,
and what stands behind the last of these (`lineColumn_eq`). An offset counts as the boundary between
characters at or behind it, so only the boundaries of a text matter, and they have their lines and
columns in ascending order (`lineColumn_law`).
-/

namespace Sigil.Text

/-- The offset at which the character number `i` of a text starts. -/
def startOf (text : List Char) (i : Nat) : Nat := byteLength (text.take i)

/-- The characters of a text that start before an offset. -/
def startedBefore (text : List Char) (offset : Nat) : List Char :=
  (text.zipIdx.filter fun (_, i) => startOf text i < offset).map (·.1)

/-- An offset in front of a character, or at the end. -/
def IsBoundary (text : List Char) (offset : Nat) : Prop :=
  ∃ p q, text = p ++ q ∧ offset = byteLength p

/-! ## Boundaries -/

theorem startOf_cons_succ (c : Char) (s : List Char) (i : Nat) :
    startOf (c :: s) (i + 1) = c.utf8Size + startOf s i := rfl

theorem startOf_append (p q : List Char) (i : Nat) :
    startOf (p ++ q) i = startOf p i + startOf q (i - p.length) := by
  rw [startOf, List.take_append, byteLength_append, startOf, startOf]

theorem startOf_eq_of_length_le {s : List Char} {i : Nat} (h : s.length ≤ i) :
    startOf s i = byteLength s := by
  rw [startOf, List.take_of_length_le h]

/-- The characters of a text start before its end. -/
theorem startOf_lt {s : List Char} {i : Nat} (h : i < s.length) : startOf s i < byteLength s := by
  have hrest : 0 < byteLength (s.drop i) := byteLength_pos (by simpa using h)
  have hsplit := congrArg byteLength (List.take_append_drop i s)
  rw [byteLength_append] at hsplit
  rw [startOf]
  omega

/-- The characters of the first part start before it ends, and the others do not. -/
theorem startOf_append_lt_iff (p q : List Char) (i : Nat) :
    startOf (p ++ q) i < byteLength p ↔ i < p.length := by
  rw [startOf_append]
  constructor
  · intro h
    by_contra hle
    rw [startOf_eq_of_length_le (Nat.le_of_not_lt hle)] at h
    omega
  · intro h
    rw [Nat.sub_eq_zero_of_le (Nat.le_of_lt h)]
    exact startOf_lt h

/-- Two offsets behind the starts of the same characters. -/
def SameStarts (text : List Char) (a b : Nat) : Prop :=
  ∀ i < text.length, startOf text i < a ↔ startOf text i < b

/-- Every offset has the same characters started before it as some boundary. -/
theorem exists_boundary (text : List Char) (offset : Nat) :
    ∃ p q, text = p ++ q ∧ SameStarts text offset (byteLength p) := by
  induction text generalizing offset with
  | nil => exact ⟨[], [], rfl, nofun⟩
  | cons c s ih =>
    by_cases hzero : offset = 0
    · exact ⟨[], c :: s, rfl, fun i _ => by rw [hzero, byteLength_nil]⟩
    · obtain ⟨p, q, rfl, hsame⟩ := ih (offset - c.utf8Size)
      refine ⟨c :: p, q, rfl, fun i hi => ?_⟩
      rw [byteLength_cons]
      cases i with
      | zero =>
        have hpos := Char.utf8Size_pos c
        have hstart : startOf (c :: (p ++ q)) 0 = 0 := rfl
        omega
      | succ i =>
        have := hsame i (Nat.lt_of_succ_lt_succ hi)
        rw [startOf_cons_succ]
        omega

theorem sameStarts_of_byteLength_le {text : List Char} {offset : Nat}
    (h : byteLength text ≤ offset) : SameStarts text offset (byteLength text) := by
  intro i hi
  have := startOf_lt hi
  omega

/-- An offset inside a character has the same characters started before it as its end. -/
theorem sameStarts_of_inside (p : List Char) (c : Char) (q : List Char) {offset : Nat}
    (hstart : byteLength p < offset) (hend : offset ≤ byteLength p + c.utf8Size) :
    SameStarts (p ++ c :: q) offset (byteLength p + c.utf8Size) := by
  intro i hi
  have hfront := startOf_append_lt_iff p (c :: q) i
  rw [startOf_append] at hfront ⊢
  by_cases hle : i ≤ p.length
  · have hzero : startOf (c :: q) (i - p.length) = 0 := by
      rw [Nat.sub_eq_zero_of_le hle]
      rfl
    have : startOf p i ≤ byteLength p := by
      by_cases hlt : i < p.length
      · exact Nat.le_of_lt (startOf_lt hlt)
      · exact Nat.le_of_eq (startOf_eq_of_length_le (Nat.le_of_not_lt hlt))
    omega
  · obtain ⟨k, hk⟩ : ∃ k, i - p.length = k + 1 := ⟨i - p.length - 1, by omega⟩
    rw [startOf_eq_of_length_le (Nat.le_of_not_le hle), hk, startOf_cons_succ]
    omega

/-! ## Counting -/

theorem startedBefore_congr {text : List Char} {a b : Nat} (h : SameStarts text a b) :
    startedBefore text a = startedBefore text b := by
  rw [startedBefore, startedBefore]
  refine congrArg _ (List.filter_congr fun x hx => ?_)
  obtain ⟨c, i⟩ := x
  exact decide_eq_decide.2 (h i (List.snd_lt_of_mem_zipIdx hx))

/-- Before a boundary the characters in front of it have started. -/
theorem startedBefore_append (p q : List Char) : startedBefore (p ++ q) (byteLength p) = p := by
  have hp : (p.zipIdx.filter fun (_, i) => startOf (p ++ q) i < byteLength p) = p.zipIdx := by
    refine List.filter_eq_self.2 fun x hx => decide_eq_true ?_
    exact (startOf_append_lt_iff p q x.2).2 (List.snd_lt_of_mem_zipIdx hx)
  have hq : ((q.zipIdx p.length).filter fun (_, i) => startOf (p ++ q) i < byteLength p) = [] := by
    refine List.filter_eq_nil_iff.2 fun x hx => ?_
    have hle := List.le_snd_of_mem_zipIdx hx
    rw [decide_eq_true_eq, startOf_append_lt_iff]
    exact Nat.not_lt.2 hle
  rw [startedBefore, List.zipIdx_append, List.filter_append, Nat.zero_add, hp, hq, List.append_nil,
    List.zipIdx_map_fst]

theorem lineColumnFrom_congr {a b here : Nat} {s : List Char}
    (h : ∀ i < s.length, here + startOf s i < a ↔ here + startOf s i < b) (line column : Nat) :
    lineColumnFrom a line column here s = lineColumnFrom b line column here s := by
  induction s generalizing line column here with
  | nil => rfl
  | cons c s ih =>
    have hhere : a ≤ here ↔ b ≤ here := by
      have : here < a ↔ here < b := h 0 (Nat.succ_pos _)
      omega
    have hrest : ∀ i < s.length,
        here + c.utf8Size + startOf s i < a ↔ here + c.utf8Size + startOf s i < b := by
      intro i hi
      have := h (i + 1) (Nat.succ_lt_succ hi)
      rwa [startOf_cons_succ, ← Nat.add_assoc] at this
    rw [lineColumnFrom, lineColumnFrom, ih hrest, ih hrest]
    simp only [hhere]

theorem lineColumn_congr {text : List Char} {a b : Nat} (h : SameStarts text a b) :
    lineColumn text a = lineColumn text b := by
  refine lineColumnFrom_congr (fun i hi => ?_) 1 1
  rw [Nat.zero_add]
  exact h i hi

/-- What stands behind the last line feed of a text. -/
def lastLine (s : List Char) : List Char := s.rtakeWhile (· ≠ '\n')

theorem endColumn_concat (s : List Char) (c : Char) :
    endColumn (s ++ [c]) = if c = '\n' then 1 else endColumn s + 1 := by
  have happend := lineColumn_append s [c] (byteLength [c])
  have hchar : lineColumn [c] (byteLength [c]) = if c = '\n' then (2, 1) else (1, 2) := by
    rw [lineColumn, lineColumnFrom_cons (byteLength_pos (List.cons_ne_nil c []))]
    rfl
  rw [endColumn, byteLength_append, happend, hchar]
  split
  · rfl
  · have := endColumn_pos s
    show endColumn s - 1 + 2 = endColumn s + 1
    omega

theorem endColumn_eq (s : List Char) : endColumn s = 1 + (lastLine s).length := by
  induction s using List.reverseRecOn with
  | nil => rfl
  | append_singleton s c ih =>
    rw [endColumn_concat, lastLine]
    split
    · rename_i h
      rw [List.rtakeWhile_concat_neg _ _ _ (by simp [h])]
      rfl
    · rename_i h
      rw [List.rtakeWhile_concat_pos _ _ _ (by simpa using h), List.length_append, ih, lastLine,
        List.length_singleton, Nat.add_assoc]

theorem lineColumn_boundary (p q : List Char) :
    lineColumn (p ++ q) (byteLength p) = (1 + lineFeeds p, 1 + (lastLine p).length) := by
  have happend := lineColumn_append p q 0
  rw [lineColumn_zero, Nat.add_zero] at happend
  have hpos := endColumn_pos p
  rw [happend, lineColumnBehind, if_pos rfl, Nat.sub_add_cancel hpos, endColumn_eq, Nat.add_comm]

/-- Line and column count the characters that start before the offset. -/
theorem lineColumn_eq (text : List Char) (offset : Nat) :
    lineColumn text offset = (1 + lineFeeds (startedBefore text offset),
      1 + (lastLine (startedBefore text offset)).length) := by
  obtain ⟨p, q, rfl, hsame⟩ := exists_boundary text offset
  rw [lineColumn_congr hsame, startedBefore_congr hsame, startedBefore_append, lineColumn_boundary]

theorem startedBefore_min (text : List Char) (offset : Nat) :
    startedBefore text (min offset (byteLength text)) = startedBefore text offset := by
  refine startedBefore_congr fun i hi => ?_
  have := startOf_lt hi
  omega

/-! ## The order of boundaries -/

theorem lastLine_of_lineFeeds {s : List Char} (h : lineFeeds s = 0) : lastLine s = s := by
  refine List.rtakeWhile_eq_self_iff.2 fun c hc => ?_
  have hne : c ≠ '\n' := fun heq => List.count_eq_zero.1 h (heq ▸ hc)
  simpa using hne

/-- A boundary further on is on a later line, or in a later column of the same one. -/
theorem lineColumn_lt {text : List Char} {a b : Nat} (ha : IsBoundary text a)
    (hb : IsBoundary text b) (h : a < b) :
    Prod.Lex (· < ·) (· < ·) (lineColumn text a) (lineColumn text b) := by
  obtain ⟨p, s, rfl, rfl⟩ := ha
  obtain ⟨p', s', htext, rfl⟩ := hb
  -- The further boundary has the text `m` in front of it behind the first one.
  obtain ⟨m, rfl⟩ : p <+: p' := by
    refine (List.prefix_or_prefix_of_prefix (List.prefix_append p s)
      (htext ▸ List.prefix_append p' s')).resolve_right ?_
    rintro ⟨t, rfl⟩
    rw [byteLength_append] at h
    omega
  rw [List.append_assoc, List.append_cancel_left_eq] at htext
  subst htext
  have hm : 0 < byteLength m := by
    rw [byteLength_append] at h
    omega
  rw [byteLength_append, lineColumn_append p, lineColumn_boundary p, lineColumn_boundary m,
    lineColumnBehind, endColumn_eq, Prod.lex_def]
  simp only
  by_cases hfeeds : lineFeeds m = 0
  · have hlength : 0 < m.length := by
      refine List.length_pos_iff.2 ?_
      rintro rfl
      exact absurd hm (Nat.lt_irrefl 0)
    rw [lastLine_of_lineFeeds hfeeds, hfeeds, if_pos rfl]
    omega
  · omega

/-- Line and column of an offset are one more than the line feeds, and than the characters behind
the last of these, among the characters that start before it. From boundary to boundary they ascend,
so no two boundaries have the same. An offset beyond the end has the end's, and one inside a
character those of the boundary behind it. -/
theorem lineColumn_law (text : List Char) :
    (∀ offset, let s := startedBefore text (min offset (byteLength text))
      lineColumn text offset =
        (1 + s.count '\n', 1 + (s.rtakeWhile (· ≠ '\n')).length)) ∧
    (∀ a b, IsBoundary text a → IsBoundary text b → a < b →
      Prod.Lex (· < ·) (· < ·) (lineColumn text a) (lineColumn text b)) ∧
    (∀ a b, IsBoundary text a → IsBoundary text b → lineColumn text a = lineColumn text b →
      a = b) ∧
    (∀ offset, byteLength text ≤ offset →
      lineColumn text offset = lineColumn text (byteLength text)) ∧
    ∀ p c q offset, text = p ++ c :: q → byteLength p < offset →
      offset ≤ byteLength p + c.utf8Size →
      lineColumn text offset = lineColumn text (byteLength p + c.utf8Size) := by
  refine ⟨fun offset => ?_, fun a b ha hb h => lineColumn_lt ha hb h, fun a b ha hb h => ?_,
    fun offset h => lineColumn_congr (sameStarts_of_byteLength_le h), ?_⟩
  · rw [startedBefore_min]
    exact lineColumn_eq text offset
  · have hirrefl : ¬ Prod.Lex (· < ·) (· < ·) (lineColumn text a) (lineColumn text a) := by
      rw [Prod.lex_def]
      omega
    rcases Nat.lt_trichotomy a b with hlt | heq | hgt
    · have hlex := lineColumn_lt ha hb hlt
      rw [← h] at hlex
      exact absurd hlex hirrefl
    · exact heq
    · have hlex := lineColumn_lt hb ha hgt
      rw [← h] at hlex
      exact absurd hlex hirrefl
  · rintro p c q offset rfl hstart hend
    exact lineColumn_congr (sameStarts_of_inside p c q hstart hend)

example : lineColumn ['a', '\n', 'é', 'x'] 3 = (2, 2) := by decide

end Sigil.Text
