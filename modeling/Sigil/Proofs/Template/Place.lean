import Mathlib.Data.List.TakeWhile
import Sigil.Template.Cursor

/-!
# Places in a template

`Spans c s e`: the text `s` stands between the places `c` and `e`. Every move of a cursor spans the
text that it passes, and two places with the same text between them and `c` are the same place.
Prefixes of a text are ordered by their byte length (`eq_of_byteLength_eq`).
-/

namespace Sigil.Template

open Text

namespace Cursor

/-- The text `s` stands between `c` and `e`. -/
structure Spans (c : Cursor) (s : List Char) (e : Cursor) : Prop where
  rest : c.rest = s ++ e.rest
  offset : e.offset = c.offset + byteLength s
  last : e.last = s.getLast?.or c.last

namespace Spans

variable {a b c : Cursor} {s t : List Char}

theorem refl (c : Cursor) : Spans c [] c := ⟨rfl, rfl, rfl⟩

theorem trans (h₁ : Spans a s b) (h₂ : Spans b t c) : Spans a (s ++ t) c where
  rest := by rw [h₁.rest, h₂.rest, List.append_assoc]
  offset := by rw [h₂.offset, h₁.offset, byteLength_append, Nat.add_assoc]
  last := by rw [h₂.last, h₁.last, List.getLast?_append, Option.or_assoc]

/-- What is spanned and where it starts say where it ends. -/
theorem unique (h₁ : Spans a s b) (h₂ : Spans a s c) : b = c := by
  have hr : b.rest = c.rest := List.append_cancel_left (h₁.rest.symm.trans h₂.rest)
  have ho : b.offset = c.offset := by rw [h₁.offset, h₂.offset]
  have hl : b.last = c.last := by rw [h₁.last, h₂.last]
  cases b
  cases c
  simp only at hr ho hl
  rw [hr, ho, hl]

theorem advance (n : Nat) (c : Cursor) : Spans c (c.rest.take n) (c.advance n) :=
  ⟨(List.take_append_drop n c.rest).symm, rfl, rfl⟩

theorem skipWhile (p : Char → Bool) (c : Cursor) :
    Spans c (c.rest.takeWhile p) (c.skipWhile p) := by
  have h := advance (c.rest.takeWhile p).length c
  rwa [← List.prefix_iff_eq_take.1 (List.takeWhile_prefix p)] at h

theorem toEnd (c : Cursor) : Spans c c.rest c.toEnd := by
  have h := advance c.rest.length c
  rwa [List.take_length] at h

theorem next {x : Char} {r : List Char} (h : c.rest = x :: r) : Spans c [x] c.next := by
  have := advance 1 c
  rwa [h] at this

/-- The place behind a text that stands here. -/
theorem advance_length (h : c.rest = s ++ t) : Spans c s (c.advance s.length) := by
  have := advance s.length c
  rwa [h, List.take_left' rfl] at this

theorem behind (h : Spans a s b) (ha : a.rest = s ++ t) : b.rest = t :=
  List.append_cancel_left (h.rest.symm.trans ha)

theorem between (h : Spans a s b) : between a b = s := by
  rw [Cursor.between, h.rest, List.length_append, Nat.add_sub_cancel, List.take_left' rfl]

theorem placed (h : Spans a s b) : placed a b = ⟨String.ofList s, a.offset⟩ := by
  rw [Cursor.placed, h.between]

theorem offset_start {text : List Char} (h : Spans (.start text) s c) :
    c.offset = byteLength s := by
  rw [h.offset]
  exact Nat.zero_add _

/-- A place on the way to another one is followed by the remaining text. -/
theorem of_append (h₁ : Spans a s b) (h₂ : Spans a (s ++ t) c) : Spans b t c where
  rest := by
    have h := h₁.rest.symm.trans h₂.rest
    rw [List.append_assoc] at h
    exact List.append_cancel_left h
  offset := by rw [h₂.offset, h₁.offset, byteLength_append, Nat.add_assoc]
  last := by rw [h₂.last, h₁.last, List.getLast?_append, Option.or_assoc]

/-- Behind text that ends with no letter or digit. -/
theorem afterWord (h : Spans a s b) (ha : a.afterWord = false)
    (hs : ∀ x ∈ s.getLast?, x.isAlphanum = false) : b.afterWord = false := by
  rw [Cursor.afterWord, h.last]
  cases hlast : s.getLast? with
  | none => exact ha
  | some x => exact hs x hlast

theorem head_next (h : Spans a s b) (hs : s ≠ []) :
    ∃ x u, s = x :: u ∧ Spans a.next u b := by
  obtain ⟨x, u, rfl⟩ := List.exists_cons_of_ne_nil hs
  have hr : a.rest = x :: (u ++ b.rest) := h.rest
  exact ⟨x, u, rfl, (next hr).of_append h⟩

end Spans

theorem advance_zero (c : Cursor) : c.advance 0 = c :=
  (Spans.advance 0 c).unique (Spans.refl c)

theorem advance_advance (m n : Nat) (c : Cursor) :
    (c.advance m).advance n = c.advance (m + n) := by
  have h := (Spans.advance m c).trans (Spans.advance n (c.advance m))
  have hs : c.rest.take m ++ (c.advance m).rest.take n = c.rest.take (m + n) := by
    rw [rest_advance, List.take_add]
  rw [hs] at h
  exact h.unique (Spans.advance (m + n) c)

theorem next_advance (n : Nat) (c : Cursor) : c.next.advance n = c.advance (n + 1) := by
  rw [next, advance_advance, Nat.add_comm]

theorem skipWhile_run {p : Char → Bool} {c : Cursor} {s k : List Char} (h : c.rest = s ++ k)
    (hs : ∀ x ∈ s, p x = true) (hk : ∀ x ∈ k.head?, p x = false) :
    c.skipWhile p = c.advance s.length := by
  have hw : c.rest.takeWhile p = s := by
    rw [h, List.takeWhile_append_of_pos hs]
    cases k with
    | nil => simp
    | cons x k => simp [hk x rfl]
  rw [skipWhile, hw]

/-- Skipping the rest of a run leads to the same place. -/
theorem skipWhile_advance {p : Char → Bool} {c : Cursor} {s k : List Char} (h : c.rest = s ++ k)
    (hs : ∀ x ∈ s, p x = true) : (c.advance s.length).skipWhile p = c.skipWhile p := by
  have h₁ := Spans.advance_length h
  have h₂ := h₁.trans (Spans.skipWhile p (c.advance s.length))
  have hw : s ++ (c.advance s.length).rest.takeWhile p = c.rest.takeWhile p := by
    rw [h₁.rest, List.takeWhile_append_of_pos hs]
  rw [hw] at h₂
  exact h₂.unique (Spans.skipWhile p c)

theorem last_next {c : Cursor} {x : Char} {r : List Char} (h : c.rest = x :: r) :
    c.next.last = some x := (Spans.next h).last

theorem last_advance_two {c : Cursor} {x y : Char} {r : List Char} (h : c.rest = x :: y :: r) :
    (c.advance 2).last = some y := by
  have := Spans.advance 2 c
  rw [h] at this
  exact this.last

end Cursor

/-! ## Offsets -/

theorem byteLength_mono {p q : List Char} (h : p <+: q) : byteLength p ≤ byteLength q := by
  obtain ⟨r, rfl⟩ := h
  rw [byteLength_append]
  omega

/-- Two prefixes of a text that have as many bytes are equal. -/
theorem eq_of_byteLength_eq {p q s : List Char} (hp : p <+: s) (hq : q <+: s)
    (h : byteLength p = byteLength q) : p = q := by
  rcases List.prefix_or_prefix_of_prefix hp hq with hpq | hpq
  · obtain ⟨r, rfl⟩ := hpq
    by_cases hr : r = []
    · rw [hr, List.append_nil]
    · have := byteLength_pos hr
      rw [byteLength_append] at h
      omega
  · obtain ⟨r, rfl⟩ := hpq
    by_cases hr : r = []
    · rw [hr, List.append_nil]
    · have := byteLength_pos hr
      rw [byteLength_append] at h
      omega

end Sigil.Template
