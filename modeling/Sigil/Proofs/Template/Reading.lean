import Sigil.Proofs.Template.Place
import Sigil.Template.Directive

/-!
# What a reading depends on

`Yields read s x`: the text `s` is read as `x` wherever it stands in front of something that ends
an expression. The readers of strings, numbers, paths, helpers and parentheses each have one such
rule, and `yields_of_readExpr` says that there are no others: whatever is read as an expression
has taken a text that yields it.
-/

namespace Sigil.Template

open Text Cursor

/-- What may follow an expression: nothing, a blank or a closing parenthesis. -/
def Stops (k : List Char) : Prop := ∀ x ∈ k.head?, isAsciiBlank x = true ∨ x = ')'

/-- The text `s` is read as `x`. -/
def Yields (read : Cursor → Reading) (s : List Char) (x : Expr) : Prop :=
  ∀ c k, c.rest = s ++ k → Stops k → read c = .ok (x, c.advance s.length)

/-- Blanks only. -/
def Blanks (s : List Char) : Prop := ∀ x ∈ s, isAsciiBlank x = true

theorem stops_nil : Stops [] := by simp [Stops]

theorem stops_blanks {b k : List Char} (hb : Blanks b) : Stops (b ++ ')' :: k) := by
  intro x hx
  cases b with
  | nil =>
    simp only [List.nil_append, List.head?_cons, Option.mem_some_iff] at hx
    exact .inr hx.symm
  | cons y b =>
    simp only [List.cons_append, List.head?_cons, Option.mem_some_iff] at hx
    exact .inl (hx ▸ hb y List.mem_cons_self)

theorem eq_of_isAsciiBlank {x : Char} (h : isAsciiBlank x = true) :
    x = ' ' ∨ x = '\t' ∨ x = '\n' ∨ x = '\x0c' ∨ x = '\r' := by
  simpa only [isAsciiBlank, Bool.or_eq_true, beq_iff_eq, or_assoc] using h

/-- What ends an expression continues none of its parts. -/
theorem Stops.head {y : Char} {k : List Char} (h : Stops (y :: k)) :
    isNamePart y = false ∧ y.isDigit = false ∧ y ≠ '.' ∧ y ≠ '(' := by
  rcases h y rfl with hb | rfl
  · rcases eq_of_isAsciiBlank hb with rfl | rfl | rfl | rfl | rfl <;> decide
  · decide

/-! ## Parentheses -/

theorem closeParen_blanks {c : Cursor} {b k : List Char} (h : c.rest = b ++ ')' :: k)
    (hb : Blanks b) : closeParen c = .ok (c.advance (b.length + 1)) := by
  have hs : c.skipWhile isAsciiBlank = c.advance b.length :=
    skipWhile_run h hb (by simp [isAsciiBlank])
  have hr : (c.advance b.length).rest = ')' :: k := by simp [h]
  unfold closeParen
  simp only [hs, hr]
  rw [next, advance_advance]

theorem spans_of_closeParen {c d : Cursor} (h : closeParen c = .ok d) :
    ∃ b, Blanks b ∧ Spans c (b ++ [')']) d := by
  unfold closeParen at h
  simp only at h
  split at h
  · rename_i r hr
    cases h
    have hb : Blanks (c.rest.takeWhile isAsciiBlank) :=
      fun x hx => List.all_eq_true.1 List.all_takeWhile x hx
    exact ⟨_, hb, (Spans.skipWhile isAsciiBlank c).trans (Spans.next hr)⟩
  · cases h

/-! ## Strings -/

theorem stringBody_append {s cs : List Char} {n : Nat} (h : stringBody s = some (cs, n))
    (k : List Char) : stringBody (s.take n ++ k) = some (cs, n) := by
  fun_induction stringBody s generalizing cs n with
  | case1 => cases h
  | case2 r =>
    cases h
    simp [stringBody]
  | case3 => cases h
  | case4 c r ih =>
    obtain ⟨⟨ds, m⟩, hm, he⟩ := Option.map_eq_some_iff.1 h
    cases he
    simp [stringBody, ih hm]
  | case5 c r h₁ h₂ h₃ ih =>
    obtain ⟨⟨ds, m⟩, hm, he⟩ := Option.map_eq_some_iff.1 h
    cases he
    have hb : c ≠ '\\' := by
      intro e
      cases r with
      | nil => exact h₂ e rfl
      | cons y r => exact h₃ y r e rfl
    rw [List.take_succ_cons, List.cons_append, stringBody.eq_def]
    split <;> simp_all

theorem length_of_stringBody {s cs : List Char} {n : Nat} (h : stringBody s = some (cs, n)) :
    n ≤ s.length := by
  fun_induction stringBody s generalizing cs n with
  | case1 => cases h
  | case2 r =>
    cases h
    simp
  | case3 => cases h
  | case4 c r ih =>
    obtain ⟨⟨ds, m⟩, hm, he⟩ := Option.map_eq_some_iff.1 h
    cases he
    have := ih hm
    simp only [List.length_cons]
    omega
  | case5 c r h₁ h₂ h₃ ih =>
    obtain ⟨⟨ds, m⟩, hm, he⟩ := Option.map_eq_some_iff.1 h
    cases he
    have := ih hm
    simp only [List.length_cons]
    omega

theorem yields_string {s cs : List Char} (h : stringBody s = some (cs, s.length)) :
    Yields readString ('"' :: s) (.str (String.ofList cs)) := by
  intro c k hc _
  have hn : c.next.rest = s ++ k := by simp [hc]
  have hb : stringBody (s ++ k) = some (cs, s.length) := by
    simpa using stringBody_append h k
  unfold readString
  rw [hn, hb]
  simp only [next_advance, List.length_cons]

/-! ## Numbers -/

theorem numberTail_of_stops {k : List Char} (hk : Stops k) : numberTail k = 0 := by
  cases k with
  | nil => rfl
  | cons y k =>
    have := hk.head
    simp [numberTail, this.2.1, this.2.2.1]

theorem numberTail_le (s : List Char) : numberTail s ≤ s.length := by
  fun_induction numberTail s with
  | case1 => exact Nat.le_refl _
  | case2 c r h ih =>
    simp only [List.length_cons]
    omega
  | case3 => exact Nat.zero_le _

theorem numberTail_append {s k : List Char} (hk : Stops k) :
    numberTail (s.take (numberTail s) ++ k) = numberTail s := by
  fun_induction numberTail s with
  | case1 => simpa using numberTail_of_stops hk
  | case2 c r h ih =>
    have hr : (r.take (numberTail r) ++ k).head?.any Char.isDigit = true ∨ c.isDigit = true := by
      simp only [Bool.or_eq_true, Bool.and_eq_true] at h
      rcases h with h | ⟨-, h⟩
      · exact .inr h
      · left
        cases r with
        | nil => simp at h
        | cons y r => simp_all [numberTail]
    simp only [Bool.or_eq_true, Bool.and_eq_true, beq_iff_eq] at h
    rw [List.take_succ_cons, List.cons_append, numberTail, if_pos, ih]
    simp only [Bool.or_eq_true, Bool.and_eq_true, beq_iff_eq]
    rcases h with h | h
    · exact .inl h
    · exact hr.elim (fun hr => .inr ⟨h.1, hr⟩) .inl
  | case3 c r h => simpa using numberTail_of_stops hk

/-! ## Names and paths -/

theorem pathLength_of_stops {k : List Char} (hk : Stops k) : pathLength k = 0 := by
  cases k with
  | nil => rfl
  | cons y k =>
    have := hk.head
    rw [pathLength.eq_def]
    split <;> simp_all

theorem pathLength_append {s k : List Char} (hk : Stops k) :
    pathLength (s.take (pathLength s) ++ k) = pathLength s := by
  fun_induction pathLength s with
  | case1 => simpa using pathLength_of_stops hk
  | case2 x r h ih => simp [pathLength, h, ih]
  | case3 x r h => simpa using pathLength_of_stops hk
  | case4 c r hd h ih =>
    have hc : c ≠ '.' := by
      rintro rfl
      exact absurd h (by decide)
    rw [List.take_succ_cons, List.cons_append, pathLength.eq_def]
    split <;> simp_all
  | case5 c r hd h => simpa using pathLength_of_stops hk

theorem takeWhile_take_pathLength (s : List Char) :
    (s.take (pathLength s)).takeWhile isNamePart = s.takeWhile isNamePart := by
  have hd : isNamePart '.' = false := by decide
  fun_induction pathLength s with
  | case1 => rfl
  | case2 x r h ih => simp [hd]
  | case3 x r h => simp [hd]
  | case4 c r _ h ih => simp [h, ih]
  | case5 c r _ h => simp [h]

theorem pathLength_le (s : List Char) : pathLength s ≤ s.length := by
  fun_induction pathLength s with
  | case1 => exact Nat.le_refl _
  | case2 x r h ih =>
    simp only [List.length_cons]
    omega
  | case3 => exact Nat.zero_le _
  | case4 c r _ h ih =>
    simp only [List.length_cons]
    omega
  | case5 => exact Nat.zero_le _

/-- A path has no parenthesis behind its first name. -/
theorem head_dropWhile_of_pathLength {s : List Char} (h : pathLength s = s.length) :
    ∀ x ∈ (s.dropWhile isNamePart).head?, x = '.' := by
  fun_induction pathLength s with
  | case1 => simp
  | case2 x r hx ih => simp [show isNamePart '.' = false by decide]
  | case3 x r hx => simp [show isNamePart '.' = false by decide]
  | case4 c r hd hc ih =>
    simp only [List.length_cons, Nat.add_right_cancel_iff] at h
    simpa [hc] using ih h
  | case5 c r hd hc => simp at h

theorem head_takeWhile_append {s k : List Char} (hk : Stops k) :
    (s ++ k).takeWhile isNamePart = s.takeWhile isNamePart := by
  induction s with
  | nil =>
    cases k with
    | nil => rfl
    | cons y k => simp [hk.head.1]
  | cons x s ih =>
    by_cases hx : isNamePart x = true
    · simp [hx, ih]
    · simp [hx]

theorem between_nameEnd (c : Cursor) : c.between (nameEnd c) = c.rest.takeWhile isNamePart :=
  (Spans.skipWhile isNamePart c).between

/-! ## Expressions that start with a name -/

theorem isNamePart_of_keyword {s : List Char} {x : Expr} (h : keyword? s = some x) :
    ∀ y ∈ s, isNamePart y = true := by
  rw [← List.all_eq_true]
  unfold keyword? at h
  split at h
  · rename_i hs
    rw [hs]
    rfl
  · split at h
    · rename_i hs
      rw [hs]
      rfl
    · split at h
      · rename_i hs
        rw [hs]
        rfl
      · cases h

theorem isNamePart_of_helper {s : List Char} {f : Helper} (h : Helper.ofName? s = some f) :
    (∀ y ∈ s, isNamePart y = true) ∧ keyword? s = none := by
  rw [← List.all_eq_true]
  unfold Helper.ofName? at h
  split at h
  · rename_i hs
    rw [hs]
    exact ⟨rfl, rfl⟩
  · split at h
    · rename_i hs
      rw [hs]
      exact ⟨rfl, rfl⟩
    · split at h
      · rename_i hs
        rw [hs]
        exact ⟨rfl, rfl⟩
      · cases h

theorem readNamed_keyword {c : Cursor} {y : Expr} (hk : keyword? (c.rest.takeWhile isNamePart) = some y) :
    readNamed c = .ok (y, nameEnd c) := by
  rw [readNamed]
  simp only [between_nameEnd, hk]

theorem readNamed_helper {c : Cursor} {r : List Char} {f : Helper}
    (hk : keyword? (c.rest.takeWhile isNamePart) = none)
    (hf : Helper.ofName? (c.rest.takeWhile isNamePart) = some f)
    (he : (nameEnd c).rest = '(' :: r) :
    readNamed c =
      match readExpr (nameEnd c).next with
      | .error fault => .error fault
      | .ok (x, d) =>
        match closeParen d with
        | .error fault => .error fault
        | .ok d => (f.apply (nameEnd c).next.offset x).map fun x => (x, d) := by
  rw [readNamed]
  simp only [between_nameEnd, hk, hf]
  split
  · rename_i hg _
    cases hg
    rfl
  · rename_i hno
    exact absurd he (hno f _ rfl)

theorem readNamed_path {c : Cursor} (hk : keyword? (c.rest.takeWhile isNamePart) = none)
    (hno : ∀ f r, Helper.ofName? (c.rest.takeWhile isNamePart) = some f →
      (nameEnd c).rest ≠ '(' :: r) : readNamed c = .ok (readPath c) := by
  rw [readNamed]
  simp only [between_nameEnd, hk]

theorem yields_keyword {s : List Char} {x : Expr} (h : keyword? s = some x) :
    Yields readNamed s x := by
  intro c k hc hk
  have hs := isNamePart_of_keyword h
  have he : nameEnd c = c.advance s.length :=
    skipWhile_run hc hs fun y hy => by
      cases k with
      | nil => cases hy
      | cons z k =>
        cases hy
        exact hk.head.1
  have hn : c.between (c.advance s.length) = s := (Spans.advance_length hc).between
  rw [readNamed]
  simp only [he, hn, h]

theorem yields_path {s : List Char} (hs : pathLength s = s.length)
    (hw : keyword? (s.takeWhile isNamePart) = none) :
    Yields readNamed s (.path (String.ofList s)) := by
  intro c k hc hk
  have hn : c.between (nameEnd c) = s.takeWhile isNamePart := by
    rw [between_nameEnd, hc, head_takeWhile_append hk]
  have hp : pathLength c.rest = s.length := by
    have := pathLength_append (s := s) hk
    rw [hs, List.take_length] at this
    rw [hc, this]
  have hr : (nameEnd c).rest.head? ≠ some '(' := by
    intro hr
    rw [nameEnd, rest_skipWhile, hc] at hr
    rw [List.dropWhile_append] at hr
    cases hd : s.dropWhile isNamePart with
    | nil =>
      rw [hd] at hr
      cases k with
      | nil => cases hr
      | cons y k =>
        rw [List.isEmpty_nil, if_pos rfl, List.dropWhile_cons_of_neg (by simp [hk.head.1])] at hr
        exact hk.head.2.2.2 (Option.some.inj hr)
    | cons y u =>
      rw [hd] at hr
      have hy := head_dropWhile_of_pathLength hs y (by rw [hd]; rfl)
      cases hr
      exact absurd hy (by decide)
  rw [readNamed]
  simp only [hn, hw]
  split
  · rename_i he
    rw [he] at hr
    exact absurd rfl hr
  · rw [readPath, hp, (Spans.advance_length hc).between]

theorem yields_helper {name s b : List Char} {f : Helper} {x y : Expr}
    (hf : Helper.ofName? name = some f) (hs : Yields readExpr s x) (hb : Blanks b)
    (ha : ∀ at_, f.apply at_ x = .ok y) :
    Yields readNamed (name ++ '(' :: s ++ b ++ [')']) y := by
  intro c k hc _
  obtain ⟨hn, hw⟩ := isNamePart_of_helper hf
  have hc' : c.rest = name ++ '(' :: (s ++ (b ++ ')' :: k)) := by simp [hc]
  have he : nameEnd c = c.advance name.length :=
    skipWhile_run hc' hn (by simp [isNamePart, Char.isAlphanum])
  have hr : (c.advance name.length).rest = '(' :: (s ++ (b ++ ')' :: k)) := by simp [hc']
  have hbt : c.between (c.advance name.length) = name := (Spans.advance_length hc').between
  have hx := hs (c.advance name.length).next (b ++ ')' :: k) (by simp [hc']) (stops_blanks hb)
  have hd : ((c.advance name.length).next.advance s.length).rest = b ++ ')' :: k := by
    simp [hc']
  rw [readNamed]
  simp only [he, hbt, hw]
  split
  · rename_i g _ hg _
    rw [hf] at hg
    cases hg
    rw [hx]
    simp only
    rw [closeParen_blanks hd hb]
    simp only [ha, Except.map, next_advance, advance_advance, List.length_append,
      List.length_cons, List.length_nil]
    congr 3
  · rename_i hno
    exact absurd (he ▸ hr) (hno f _ hf)

/-! ## Expressions -/

theorem skipWhile_self {p : Char → Bool} {c : Cursor} (h : ∀ x ∈ c.rest.head?, p x = false) :
    c.skipWhile p = c := by
  have := skipWhile_run (p := p) (c := c) (s := []) (k := c.rest) rfl (by simp) h
  rwa [List.length_nil, advance_zero] at this

/-- Blanks in front of an expression make no difference. -/
theorem readExpr_skipWhile (c : Cursor) : readExpr (c.skipWhile isAsciiBlank) = readExpr c := by
  have h : (c.skipWhile isAsciiBlank).skipWhile isAsciiBlank = c.skipWhile isAsciiBlank := by
    refine skipWhile_self fun x hx => ?_
    have := List.head?_dropWhile_not isAsciiBlank c.rest
    rw [rest_skipWhile] at hx
    cases hd : (c.rest.dropWhile isAsciiBlank).head? with
    | none =>
      rw [hd] at hx
      cases hx
    | some y =>
      rw [hd] at hx this
      cases hx
      simpa using this
  rw [readExpr, readExpr, h]

theorem readExpr_cons {c : Cursor} {y : Char} {r : List Char} (h : c.rest = y :: r)
    (hy : isAsciiBlank y = false) :
    readExpr c =
      if y = '"' then readString c
      else if startsNumber y r then .ok (readNumber c)
      else if isNameStart y then readNamed c
      else if y = ')' then .error ⟨.emptyExpression, c.offset⟩
      else .error ⟨.unexpectedCharacter, c.offset⟩ := by
  have hs : c.skipWhile isAsciiBlank = c := skipWhile_self (by simp [h, hy])
  rw [readExpr, hs]
  split
  · rename_i hr
    rw [h] at hr
    cases hr
  · rename_i x u hr
    rw [h] at hr
    cases hr
    rfl

theorem Yields.blanks {a s : List Char} {x : Expr} (ha : Blanks a) (hs : Yields readExpr s x) :
    Yields readExpr (a ++ s) x := by
  intro c k hc hk
  have hc' : c.rest = a ++ (s ++ k) := by rw [hc, List.append_assoc]
  have hr : (c.advance a.length).rest = s ++ k := by simp [hc']
  rw [← readExpr_skipWhile, ← skipWhile_advance hc' ha, readExpr_skipWhile, hs _ k hr hk,
    advance_advance, List.length_append]

theorem not_blank_of_isNamePart {y : Char} (h : isNamePart y = true) : isAsciiBlank y = false := by
  by_contra hb
  rcases eq_of_isAsciiBlank (Bool.of_not_eq_false hb) with rfl | rfl | rfl | rfl | rfl <;>
    exact absurd h (by decide)

theorem Yields.string {s : List Char} {x : Expr} (h : Yields readString ('"' :: s) x) :
    Yields readExpr ('"' :: s) x := by
  intro c k hc hk
  rw [readExpr_cons hc (by decide), if_pos rfl]
  exact h c k hc hk

theorem toNat_le_of_isAlpha {y : Char} (h : y.isAlpha = true) : 'A'.toNat ≤ y.toNat := by
  rcases Bool.or_eq_true_iff.1 h with h | h
  · have hle : 'A'.val ≤ y.val := (of_decide_eq_true h).1
    exact UInt32.le_iff_toNat_le.1 hle
  · have hle : 'a'.val ≤ y.val := of_decide_eq_true (Bool.and_eq_true_iff.1 h).1
    exact Nat.le_trans (by decide) (UInt32.le_iff_toNat_le.1 hle)

theorem not_digit_of_isAlpha {y : Char} (h : y.isAlpha = true) : y.isDigit = false := by
  by_contra hd
  have hdigit := Char.isDigit_iff_toNat.1 (Bool.of_not_eq_false hd)
  have hle := toNat_le_of_isAlpha h
  have : '9'.toNat < 'A'.toNat := by decide
  omega

theorem Yields.named {y : Char} {s : List Char} {x : Expr} (hy : isNameStart y = true)
    (h : Yields readNamed (y :: s) x) : Yields readExpr (y :: s) x := by
  intro c k hc hk
  have hb := not_blank_of_isNamePart (isNamePart_of_isNameStart hy)
  have hq : y ≠ '"' := by
    rintro rfl
    exact absurd hy (by decide)
  have hd : startsNumber y (s ++ k) = false := by
    simp only [isNameStart, Bool.or_eq_true, beq_iff_eq] at hy
    simp only [startsNumber, Bool.or_eq_false_iff, Bool.and_eq_false_iff]
    rcases hy with hy | rfl
    · refine ⟨not_digit_of_isAlpha hy, .inl (beq_eq_false_iff_ne.2 ?_)⟩
      rintro rfl
      exact absurd hy (by decide)
    · exact ⟨by decide, .inl (by decide)⟩
  rw [readExpr_cons hc hb, if_neg hq, if_neg (by simp [hd]), if_pos hy]
  exact h c k hc hk

theorem yields_number {y : Char} {s : List Char} (hy : startsNumber y s = true)
    (hs : numberTail s = s.length) :
    Yields readExpr (y :: s) (.number (String.ofList (y :: s))) := by
  intro c k hc hk
  rw [List.cons_append] at hc
  have hn : startsNumber y (s ++ k) = true := by
    simp only [startsNumber, Bool.or_eq_true, Bool.and_eq_true] at hy ⊢
    refine hy.imp id fun h => ⟨h.1, ?_⟩
    cases s with
    | nil => exact absurd h.2 (by simp)
    | cons z s => exact h.2
  have ht : numberTail (s ++ k) = s.length := by
    have := numberTail_append (s := s) hk
    rwa [hs, List.take_length] at this
  have hr : c.next.rest = s ++ k := by simp [hc]
  have hb : isAsciiBlank y = false := by
    by_contra hb
    rcases eq_of_isAsciiBlank (Bool.of_not_eq_false hb) with rfl | rfl | rfl | rfl | rfl <;>
      simp [startsNumber, Char.isDigit] at hy
  have hq : y ≠ '"' := by
    rintro rfl
    simp [startsNumber, Char.isDigit] at hy
  have hl : c.next.advance (numberTail c.next.rest) = c.advance (y :: s).length := by
    rw [hr, ht, next_advance, List.length_cons]
  rw [readExpr_cons hc hb, if_neg hq, if_pos hn, readNumber, hl,
    (Spans.advance_length hc).between]

/-! ## Everything that is read follows the rules -/

theorem Helper.apply_eq {f : Helper} {at_ : Nat} {x y : Expr} (h : f.apply at_ x = .ok y)
    (at' : Nat) : f.apply at' x = .ok y := by
  cases f with
  | raw => exact h
  | encode => exact h
  | url =>
    cases x with
    | str p => exact h
    | _ => cases h

theorem yields_of_readString {c d : Cursor} {x : Expr} (hc : c.rest.head? = some '"')
    (h : readString c = .ok (x, d)) :
    ∃ s, Spans c ('"' :: s) d ∧ Yields readString ('"' :: s) x := by
  unfold readString at h
  split at h
  · rename_i cs n hn
    cases h
    obtain ⟨r, hr⟩ : ∃ r, c.rest = '"' :: r := by
      cases hr : c.rest with
      | nil => simp [hr] at hc
      | cons y r =>
        simp only [hr, List.head?_cons, Option.some.injEq] at hc
        exact ⟨r, by rw [hc]⟩
    have hl := length_of_stringBody hn
    refine ⟨c.next.rest.take n, (Spans.next hr).trans (Spans.advance n c.next), ?_⟩
    have ht := stringBody_append hn []
    rw [List.append_nil] at ht
    exact yields_string (by rw [ht, List.length_take_of_le hl])
  · cases h

theorem yields_readNumber {c : Cursor} {y : Char} {r : List Char} (hc : c.rest = y :: r)
    (hy : startsNumber y r = true) :
    ∃ s, Spans c s (readNumber c).2 ∧ Yields readExpr s (readNumber c).1 := by
  have hr : c.next.rest = r := by simp [hc]
  have hs := (Spans.next hc).trans (Spans.advance (numberTail c.next.rest) c.next)
  have ht := numberTail_append (s := r) stops_nil
  rw [List.append_nil] at ht
  rw [hr] at hs
  have hn : startsNumber y (r.take (numberTail r)) = true := by
    simp only [startsNumber, Bool.or_eq_true, Bool.and_eq_true] at hy ⊢
    refine hy.imp id fun h => ⟨h.1, ?_⟩
    cases r with
    | nil => exact absurd h.2 (by simp)
    | cons z r =>
      have hz : z.isDigit = true := h.2
      simp [numberTail, hz]
  refine ⟨y :: r.take (numberTail r), ?_, ?_⟩
  · rw [readNumber, hr]
    exact hs
  · have := yields_number hn (by rw [ht, List.length_take_of_le (numberTail_le r)])
    have he : (readNumber c).1 = .number (String.ofList (y :: r.take (numberTail r))) := by
      simp only [readNumber, hr]
      rw [hs.between]
      rfl
    rwa [he]

theorem pathLength_cons {y : Char} (r : List Char) (hy : isNamePart y = true) :
    pathLength (y :: r) = pathLength r + 1 := by
  rw [pathLength.eq_def]
  split
  · rename_i h
    cases h
  · rename_i h
    cases h
    exact absurd hy (by decide)
  · rename_i h
    cases h
    rw [if_pos hy]

theorem yields_readPath {c : Cursor} {y : Char} {r : List Char} (hc : c.rest = y :: r)
    (hy : isNamePart y = true) (hk : keyword? (c.rest.takeWhile isNamePart) = none) :
    ∃ s, Spans c (y :: s) (readPath c).2 ∧ Yields readNamed (y :: s) (readPath c).1 := by
  have hs := Spans.advance (pathLength c.rest) c
  have ht : c.rest.take (pathLength c.rest) = y :: r.take (pathLength r) := by
    rw [hc, pathLength_cons r hy, List.take_succ_cons]
  have hl : pathLength (c.rest.take (pathLength c.rest)) =
      (c.rest.take (pathLength c.rest)).length := by
    have := pathLength_append (s := c.rest) stops_nil
    rw [List.append_nil] at this
    rw [this, List.length_take_of_le (pathLength_le _)]
  have hp := yields_path hl (by rw [takeWhile_take_pathLength, hk])
  have he : (readPath c).1 = .path (String.ofList (c.rest.take (pathLength c.rest))) := by
    rw [readPath, hs.between]
  rw [ht] at hs hp he
  exact ⟨r.take (pathLength r), hs, he ▸ hp⟩

/-- A name is read by the rules if the argument of a helper is. -/
theorem yields_of_readNamed_of {c d : Cursor} {x : Expr} {y : Char} {r : List Char}
    (hc : c.rest = y :: r) (hy : isNameStart y = true)
    (ih : ∀ {e x}, (nameEnd c).next.rest.length < c.rest.length →
      readExpr (nameEnd c).next = .ok (x, e) →
      ∃ s, Spans (nameEnd c).next s e ∧ Yields readExpr s x)
    (h : readNamed c = .ok (x, d)) : ∃ s, Spans c (y :: s) d ∧ Yields readNamed (y :: s) x := by
  have hp := isNamePart_of_isNameStart hy
  have hname := Spans.skipWhile isNamePart c
  have hw : c.rest.takeWhile isNamePart = y :: r.takeWhile isNamePart := by simp [hc, hp]
  rw [readNamed] at h
  simp only [between_nameEnd] at h
  split at h
  · rename_i x' hk
    cases h
    rw [hw] at hname hk
    exact ⟨_, hname, yields_keyword hk⟩
  · rename_i hk
    split at h
    · rename_i f r' hf he
      have hlt := length_next_nameEnd_lt he
      split at h
      · cases h
      · rename_i x' e hx
        obtain ⟨s, hs, hys⟩ := ih hlt hx
        split at h
        · cases h
        · rename_i d' hd
          obtain ⟨b, hb, hbs⟩ := spans_of_closeParen hd
          rw [Except.map.eq_def] at h
          split at h
          · cases h
          · rename_i y' hy'
            cases h
            have hall := hname.trans ((Spans.next he).trans (hs.trans hbs))
            have := yields_helper hf hys hb (Helper.apply_eq hy')
            rw [hw] at hall this
            exact ⟨_, hall, by simpa [List.append_assoc] using this⟩
    · simp only [Except.ok.injEq] at h
      have := yields_readPath hc hp hk
      rwa [h] at this

theorem yields_of_reading (n : Nat) {c d : Cursor} {x : Expr} (hn : c.rest.length < n)
    (h : readExpr c = .ok (x, d)) : ∃ s, Spans c s d ∧ Yields readExpr s x := by
  induction n generalizing c d x with
  | zero => exact absurd hn (Nat.not_lt_zero _)
  | succ n ih =>
    have hs := Spans.skipWhile isAsciiBlank c
    have hb : Blanks (c.rest.takeWhile isAsciiBlank) :=
      fun x hx => List.all_eq_true.1 List.all_takeWhile x hx
    have hle := Cursor.length_skipWhile isAsciiBlank c
    rw [readExpr] at h
    split at h
    · cases h
    · rename_i y r hr
      split at h
      · rename_i hq
        subst hq
        obtain ⟨s, hs', hy⟩ := yields_of_readString (by rw [hr]; rfl) h
        exact ⟨_, hs.trans hs', hy.string.blanks hb⟩
      · split at h
        · rename_i hd
          obtain ⟨s, hs', hy⟩ := yields_readNumber hr hd
          cases h
          exact ⟨_, hs.trans hs', hy.blanks hb⟩
        · split at h
          · rename_i hd
            obtain ⟨s, hs', hy⟩ := yields_of_readNamed_of hr hd (fun hl => ih (by omega)) h
            exact ⟨_, hs.trans hs', (hy.named hd).blanks hb⟩
          · split at h <;> cases h

/-- What is read as an expression has taken a text that yields it. -/
theorem yields_of_readExpr {c d : Cursor} {x : Expr} (h : readExpr c = .ok (x, d)) :
    ∃ s, Spans c s d ∧ Yields readExpr s x := yields_of_reading _ (Nat.lt_succ_self _) h

/-! ## Directives -/

/-- An expression in parentheses, whatever follows. -/
theorem directive_parens {s b k : List Char} {x : Expr} {c : Cursor} (hs : Yields readExpr s x)
    (hb : Blanks b) (hc : c.rest = '(' :: (s ++ (b ++ ')' :: k))) (at_ : Nat) :
    directive at_ c = .ok (x, c.advance (s.length + b.length + 2)) := by
  have hr : c.next.rest = s ++ (b ++ ')' :: k) := by simp [hc]
  have hd : (c.next.advance s.length).rest = b ++ ')' :: k := by simp [hc]
  unfold directive
  rw [hc]
  simp only [if_true]
  rw [hs _ _ hr (stops_blanks hb)]
  simp only
  rw [closeParen_blanks hd hb]
  simp only [Except.map, next_advance, advance_advance]
  congr 3
  omega

theorem Yields.directive {y : Char} {s : List Char} {x : Expr} (hy : isNameStart y = true)
    (h : Yields readNamed (y :: s) x) (at_ : Nat) : Yields (directive at_) (y :: s) x := by
  intro c k hc hk
  have hp : y ≠ '(' := by
    rintro rfl
    exact absurd hy (by decide)
  rw [← h c k hc hk, Template.directive, hc]
  simp only [List.cons_append, hp, if_false, hy, if_true]

/-- A directive has taken a text that is the same directive wherever it stands alone. -/
theorem yields_of_directive {c d : Cursor} {x : Expr} {at_ : Nat}
    (h : directive at_ c = .ok (x, d)) :
    ∃ y s, Spans c (y :: s) d ∧ (y = '(' ∨ isNameStart y = true) ∧
      ∀ at', Yields (directive at') (y :: s) x := by
  unfold directive at h
  split at h
  · cases h
  · rename_i y r hr
    split at h
    · rename_i hy
      subst hy
      split at h
      · cases h
      · rename_i x' e he
        obtain ⟨s, hs, hys⟩ := yields_of_readExpr he
        rw [Except.map.eq_def] at h
        split at h
        · cases h
        · rename_i d' hd
          cases h
          obtain ⟨b, hb, hbs⟩ := spans_of_closeParen hd
          refine ⟨'(', s ++ (b ++ [')']), (Spans.next hr).trans (hs.trans hbs), .inl rfl, ?_⟩
          intro at' c' k hc' _
          rw [directive_parens hys hb (k := k) (by simpa using hc')]
          simp only [List.length_append, List.length_cons, List.length_nil]
          congr 3
    · split at h
      · rename_i hy
        obtain ⟨s, hs, hys⟩ := yields_of_readNamed_of hr hy (fun _ => yields_of_readExpr) h
        exact ⟨y, s, hs, .inr hy, hys.directive hy⟩
      · cases h

end Sigil.Template
