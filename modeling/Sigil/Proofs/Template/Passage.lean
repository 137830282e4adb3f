import Sigil.Proofs.Template.Reading

/-!
# What is passed in front of a fault

A directive is read up to the place behind it, or up to the place of its fault (`directive_eq_error`).
What is passed on the way holds one string at most (`Passage`), as an expression has one argument at
most. So a directive behind an `@` inside of it does not come to the same place (`Passage.ne`).
-/

namespace Sigil.Template

open Text Cursor

/-! ## Passages -/

/-- No string, escape or directive starts in the text. -/
def Unquoted (s : List Char) : Prop := ∀ x ∈ s, x ≠ '@' ∧ x ≠ '"' ∧ x ≠ '\\'

/-- Blanks and closing parentheses. -/
def Closing (s : List Char) : Prop := ∀ x ∈ s, isAsciiBlank x = true ∨ x = ')'

/-- The text of a string behind its opening quote. -/
inductive StringText : List Char → Prop where
  | close : StringText ['"']
  | escape {x : Char} {r : List Char} : StringText r → StringText ('\\' :: x :: r)
  | char {x : Char} {r : List Char} : x ≠ '"' → StringText r → StringText (x :: r)

/-- The text of an expression or its first part: it holds one string at most. -/
inductive Passage : List Char → Prop where
  | unquoted {s : List Char} : Unquoted s → Passage s
  | quoted {a w t : List Char} : Unquoted a → StringText w → Closing t →
      Passage (a ++ '"' :: (w ++ t))

section

variable {s t a b v w p q : List Char}

theorem Unquoted.nil : Unquoted [] := List.forall_mem_nil _

theorem Closing.nil : Closing [] := List.forall_mem_nil _

theorem Unquoted.append (hs : Unquoted s) (ht : Unquoted t) : Unquoted (s ++ t) :=
  List.forall_mem_append.2 ⟨hs, ht⟩

theorem Closing.append (hs : Closing s) (ht : Closing t) : Closing (s ++ t) :=
  List.forall_mem_append.2 ⟨hs, ht⟩

theorem Closing.unquoted (h : Closing s) : Unquoted s := by
  intro x hx
  rcases h x hx with hb | rfl
  · rcases eq_of_isAsciiBlank hb with rfl | rfl | rfl | rfl | rfl <;> decide
  · decide

theorem Blanks.closing (h : Blanks s) : Closing s := fun x hx => .inl (h x hx)

theorem unquoted_of_isNamePart (h : ∀ x ∈ s, isNamePart x = true) : Unquoted s := by
  intro x hx
  refine ⟨?_, ?_, ?_⟩ <;>
    (rintro rfl; exact absurd (h _ hx) (by decide))

theorem Passage.behind (ha : Unquoted a) (hs : Passage s) : Passage (a ++ s) := by
  cases hs with
  | unquoted hs => exact .unquoted (ha.append hs)
  | quoted hb hw ht =>
    rw [← List.append_assoc]
    exact .quoted (ha.append hb) hw ht

theorem Passage.append (hs : Passage s) (ht : Closing t) : Passage (s ++ t) := by
  cases hs with
  | unquoted hs => exact .unquoted (hs.append ht.unquoted)
  | quoted hb hw hu =>
    rw [List.append_assoc, List.cons_append, List.append_assoc]
    exact .quoted hb hw (hu.append ht)

theorem stringText_take {cs : List Char} {n : Nat} (h : stringBody s = some (cs, n)) :
    StringText (s.take n) := by
  fun_induction stringBody s generalizing cs n with
  | case1 => cases h
  | case2 r =>
    cases h
    exact .close
  | case3 => cases h
  | case4 x r ih =>
    obtain ⟨⟨ds, m⟩, hm, he⟩ := Option.map_eq_some_iff.1 h
    cases he
    exact .escape (ih hm)
  | case5 x r hquote _ _ ih =>
    obtain ⟨⟨ds, m⟩, hm, he⟩ := Option.map_eq_some_iff.1 h
    cases he
    exact .char (fun hx => hquote hx) (ih hm)

theorem StringText.exists_eq (h : StringText w) : ∃ v, w = v ++ ['"'] := by
  induction h with
  | close => exact ⟨[], rfl⟩
  | @escape x r _ ih =>
    obtain ⟨v, rfl⟩ := ih
    exact ⟨'\\' :: x :: v, rfl⟩
  | @char x r _ _ ih =>
    obtain ⟨v, rfl⟩ := ih
    exact ⟨x :: v, rfl⟩

theorem getLast?_cons_of_eq_some {x y : Char} (h : s.getLast? = some y) :
    (x :: s).getLast? = some y := by
  rw [List.getLast?_cons, h, Option.getD_some]

/-- Every other quote in a string stands behind a backslash. -/
theorem StringText.escaped (h : StringText w) (hw : w = p ++ '"' :: q) (hq : q ≠ []) :
    p.getLast? = some '\\' := by
  induction h generalizing p with
  | close =>
    rw [eq_comm, List.append_eq_singleton_iff] at hw
    rcases hw with ⟨-, hw⟩ | ⟨-, hw⟩
    · exact absurd (List.cons.inj hw).2 hq
    · cases hw
  | escape _ ih =>
    match p, hw with
    | [], hw => cases hw
    | [_], hw =>
      cases hw
      rfl
    | _ :: _ :: p, hw =>
      cases hw
      exact getLast?_cons_of_eq_some (getLast?_cons_of_eq_some (ih rfl))
  | char hquote _ ih =>
    match p, hw with
    | [], hw =>
      cases hw
      exact absurd rfl hquote
    | _ :: p, hw =>
      cases hw
      exact getLast?_cons_of_eq_some (ih rfl)

/-- Two texts are equal up to the last quote if they are equal. -/
theorem eq_of_append_quote (hs : '"' ∉ s) (ht : '"' ∉ t) (h : p ++ '"' :: s = q ++ '"' :: t) :
    p = q := by
  rcases List.append_eq_append_iff.1 h with ⟨z, rfl, hz⟩ | ⟨z, rfl, hz⟩
  · cases z with
    | nil => rw [List.append_nil]
    | cons x z =>
      cases hz
      exact absurd (List.mem_append_right z List.mem_cons_self) hs
  · cases z with
    | nil => rw [List.append_nil]
    | cons x z =>
      cases hz
      exact absurd (List.mem_append_right z List.mem_cons_self) ht

theorem Unquoted.quote_notMem (h : Unquoted s) : '"' ∉ s := fun hx => (h _ hx).2.1 rfl

theorem Unquoted.at_notMem (h : Unquoted s) : '@' ∉ s := fun hx => (h _ hx).1 rfl

/-- A string that opens behind an `@` in another one would open at a quote that stands behind no
backslash, where the other one has ended. -/
theorem StringText.not_opens (hw : StringText (v ++ ['"'])) (ha : Unquoted a) (hb : Unquoted b)
    (u y : List Char) : a ++ '"' :: v ≠ (u ++ '@' :: b) ++ '"' :: y := by
  intro h
  have hat : '@' ∈ u ++ '@' :: b := List.mem_append_right u List.mem_cons_self
  rcases List.append_eq_append_iff.1 h with ⟨z, hz, hv⟩ | ⟨z, hz, -⟩
  · cases z with
    | nil =>
      rw [List.append_nil] at hz
      exact ha.at_notMem (hz ▸ hat)
    | cons q z =>
      cases hv
      have hlast := hw.escaped (p := z) (q := y ++ ['"']) (by simp) (by simp)
      have hback : ('@' :: b).getLast? = some '\\' := by
        have := congrArg List.getLast? hz
        simpa [List.getLast?_append, List.getLast?_cons, hlast] using this
      rcases List.mem_cons.1 (List.mem_of_getLast? hback) with hsign | hmem
      · exact absurd hsign (by decide)
      · exact (hb _ hmem).2.2 rfl
  · exact ha.at_notMem (hz ▸ List.mem_append_left z hat)

theorem Passage.ne (hs : Passage s) (ht : Passage t) (u : List Char) : s ≠ u ++ '@' :: t := by
  intro h
  cases hs with
  | unquoted hs => exact hs.at_notMem (h ▸ List.mem_append_right u List.mem_cons_self)
  | @quoted a w close ha hw hclose =>
    obtain ⟨v, rfl⟩ := hw.exists_eq
    have hsplit : (a ++ '"' :: v) ++ '"' :: close = u ++ '@' :: t := by
      rw [← h]
      simp
    cases ht with
    | unquoted ht =>
      rcases List.append_eq_append_iff.1 hsplit with ⟨z, -, hz⟩ | ⟨z, -, hz⟩
      · have hat : '@' ∈ '"' :: close := hz ▸ List.mem_append_right z List.mem_cons_self
        exact hclose.unquoted.at_notMem ((List.mem_cons.1 hat).resolve_left (by decide))
      · have hquote : '"' ∈ '@' :: t := hz ▸ List.mem_append_right z List.mem_cons_self
        exact ht.quote_notMem ((List.mem_cons.1 hquote).resolve_left (by decide))
    | @quoted b x close' hb hx hclose' =>
      obtain ⟨y, rfl⟩ := hx.exists_eq
      have hlast : (a ++ '"' :: v) ++ '"' :: close =
          ((u ++ '@' :: b) ++ '"' :: y) ++ '"' :: close' := by
        rw [hsplit]
        simp
      exact hw.not_opens ha hb u y (eq_of_append_quote hclose.unquoted.quote_notMem
        hclose'.unquoted.quote_notMem hlast)

end

/-! ## Where a directive gets stuck -/

/-- A fault with this cause may stand at an `@`. -/
inductive Cause.StandsAtSign : Cause → Prop where
  | comment : StandsAtSign .unterminatedComment
  | block : StandsAtSign .codeBlockUnsupported
  | empty : StandsAtSign .emptyExpression

/-- A reader that starts at `c` has a fault at `e`, behind the text `s`. -/
structure Stuck (c : Cursor) (f : Fault) (s : List Char) (e : Cursor) : Prop where
  spans : Spans c s e
  passage : Passage s
  position_eq : f.position = e.offset
  ahead : f.cause.StandsAtSign → e.rest.head? ≠ some '@'

/-- A reader that starts at `c` passes a text, or gets stuck behind one. -/
inductive Ends (c : Cursor) : Reading → Prop where
  | ok {x : Expr} {s : List Char} {e : Cursor} : Spans c s e → Passage s → Ends c (.ok (x, e))
  | error {f : Fault} {s : List Char} {e : Cursor} : Stuck c f s e → Ends c (.error f)

section

variable {b c d e : Cursor} {f : Fault} {s a : List Char}

theorem Stuck.behind (h : Stuck c f s e) (hb : Spans b a c) (ha : Unquoted a) :
    Stuck b f (a ++ s) e :=
  ⟨hb.trans h.spans, h.passage.behind ha, h.position_eq, h.ahead⟩

theorem Ends.behind {r : Reading} (h : Ends c r) (hb : Spans b a c) (ha : Unquoted a) :
    Ends b r := by
  cases h with
  | ok hs hp => exact .ok (hb.trans hs) (hp.behind ha)
  | error h => exact .error (h.behind hb ha)

theorem blanks_takeWhile (s : List Char) : Blanks (s.takeWhile isAsciiBlank) :=
  fun x hx => List.all_eq_true.1 List.all_takeWhile x hx

/-- Behind a text that has been passed, a closing parenthesis is passed as well, or missing. -/
theorem stuck_closeParen (hs : Spans b s c) (hp : Passage s) (h : closeParen c = .error f) :
    ∃ t e, Stuck b f t e := by
  unfold closeParen at h
  simp only at h
  split at h
  · cases h
  · cases h
    exact ⟨_, _, hs.trans (Spans.skipWhile isAsciiBlank c),
      hp.append (blanks_takeWhile _).closing, rfl, fun h => by cases h⟩

theorem passage_closeParen (hs : Spans b s c) (hp : Passage s) (h : closeParen c = .ok d) :
    ∃ t, Spans b t d ∧ Passage t := by
  obtain ⟨t, ht, hspans⟩ := spans_of_closeParen h
  refine ⟨_, hs.trans hspans, hp.append (ht.closing.append ?_)⟩
  exact fun x hx => .inr (List.mem_singleton.1 hx)

theorem Unquoted.cons {x : Char} (hx : x ≠ '@' ∧ x ≠ '"' ∧ x ≠ '\\') (hs : Unquoted s) :
    Unquoted (x :: s) :=
  List.forall_mem_cons.2 ⟨hx, hs⟩

theorem unquoted_path (s : List Char) : Unquoted (s.take (pathLength s)) := by
  fun_induction pathLength s with
  | case1 => exact .nil
  | case2 x r hx ih =>
    have hstart := unquoted_of_isNamePart (s := [x]) (by simpa using isNamePart_of_isNameStart hx)
    exact .cons (by decide) (.cons (hstart x (List.mem_singleton_self x)) ih)
  | case3 => exact .nil
  | case4 x r _ hx ih =>
    exact .cons (unquoted_of_isNamePart (s := [x]) (by simpa using hx) x
      (List.mem_singleton_self x)) ih
  | case5 => exact .nil

theorem unquoted_digit {x : Char} (hx : x.isDigit = true) : x ≠ '@' ∧ x ≠ '"' ∧ x ≠ '\\' := by
  refine ⟨?_, ?_, ?_⟩ <;>
    (rintro rfl; exact absurd hx (by decide))

theorem unquoted_number (s : List Char) : Unquoted (s.take (numberTail s)) := by
  fun_induction numberTail s with
  | case1 => exact .nil
  | case2 x r hx ih =>
    refine .cons ?_ ih
    simp only [Bool.or_eq_true, Bool.and_eq_true, beq_iff_eq] at hx
    rcases hx with hx | ⟨rfl, -⟩
    · exact unquoted_digit hx
    · decide
  | case3 => exact .nil

theorem ends_readNumber {y : Char} {r : List Char} (hc : c.rest = y :: r)
    (hy : startsNumber y r = true) : Ends c (.ok (readNumber c)) := by
  have hspans := (Spans.next hc).trans (Spans.advance (numberTail c.next.rest) c.next)
  refine .ok hspans (.unquoted (.cons ?_ (unquoted_number _)))
  simp only [startsNumber, Bool.or_eq_true, Bool.and_eq_true, beq_iff_eq] at hy
  rcases hy with hy | ⟨rfl, -⟩
  · exact unquoted_digit hy
  · decide

theorem ends_readString {r : List Char} (hc : c.rest = '"' :: r) : Ends c (readString c) := by
  unfold readString
  cases hbody : stringBody c.next.rest with
  | none => exact .error ⟨Spans.refl c, .unquoted .nil, rfl, fun h => by cases h⟩
  | some body =>
    obtain ⟨cs, n⟩ := body
    have hpassage := Passage.quoted .nil (stringText_take hbody) .nil
    rw [List.nil_append, List.append_nil] at hpassage
    exact .ok ((Spans.next hc).trans (Spans.advance n c.next)) hpassage

/-- A helper that does not take its argument is stuck where the argument starts. -/
theorem apply_eq_error {h : Helper} {at_ : Nat} {x : Expr} (hf : h.apply at_ x = .error f) :
    f = ⟨.urlExpectsString, at_⟩ := by
  cases h with
  | raw | encode => cases hf
  | url => cases x <;> cases hf <;> rfl

theorem ends_readNamed
    (ih : ∀ d, d.rest.length < c.rest.length → Ends d (readExpr d)) : Ends c (readNamed c) := by
  have hname := Spans.skipWhile isNamePart c
  have hparts : Unquoted (c.rest.takeWhile isNamePart) :=
    unquoted_of_isNamePart fun x hx => List.all_eq_true.1 List.all_takeWhile x hx
  cases hk : keyword? (c.rest.takeWhile isNamePart) with
  | some x =>
    rw [readNamed_keyword hk]
    exact .ok hname (.unquoted hparts)
  | none =>
    by_cases hhelper : ∃ f r, Helper.ofName? (c.rest.takeWhile isNamePart) = some f ∧
        (nameEnd c).rest = '(' :: r
    · obtain ⟨f, r, hf, hr⟩ := hhelper
      have hopen : Spans c (c.rest.takeWhile isNamePart ++ ['(']) (nameEnd c).next :=
        hname.trans (Spans.next hr)
      have hunquoted : Unquoted (c.rest.takeWhile isNamePart ++ ['(']) :=
        hparts.append (by simp [Unquoted])
      have hlt := length_next_nameEnd_lt hr
      have harg := (ih _ hlt).behind hopen hunquoted
      rw [readNamed_helper hk hf hr]
      cases hx : readExpr (nameEnd c).next with
      | error fault =>
        rw [hx] at harg
        exact harg
      | ok x =>
        rw [hx] at harg
        obtain ⟨x, d⟩ := x
        cases harg with
        | ok hs hp =>
          simp only
          cases hd : closeParen d with
          | error fault =>
            obtain ⟨t, e, h⟩ := stuck_closeParen hs hp hd
            exact .error h
          | ok e =>
            simp only
            cases hy : f.apply (nameEnd c).next.offset x with
            | error fault =>
              rw [apply_eq_error hy]
              exact .error ⟨hopen, .unquoted hunquoted, rfl, fun h => by cases h⟩
            | ok y =>
              obtain ⟨t, ht, hpt⟩ := passage_closeParen hs hp hd
              exact .ok ht hpt
    · rw [readNamed_path hk fun f r hf hr => hhelper ⟨f, r, hf, hr⟩]
      exact .ok (Spans.advance _ c) (.unquoted (unquoted_path _))

theorem ends_readExpr (c : Cursor) : Ends c (readExpr c) := by
  have hblanks := Spans.skipWhile isAsciiBlank c
  have hunquoted := (blanks_takeWhile c.rest).closing.unquoted
  have hle := Cursor.length_skipWhile isAsciiBlank c
  rw [readExpr]
  split
  · rename_i hr
    exact .error ⟨hblanks, .unquoted hunquoted, rfl, fun _ => by rw [hr]; simp⟩
  · rename_i x r hr
    split
    · rename_i hquote
      subst hquote
      exact (ends_readString hr).behind hblanks hunquoted
    · split
      · rename_i hnumber
        exact (ends_readNumber hr hnumber).behind hblanks hunquoted
      · split
        · refine Ends.behind (ends_readNamed fun d hlt => ?_) hblanks hunquoted
          have : d.rest.length < c.rest.length := Nat.lt_of_lt_of_le hlt hle
          exact ends_readExpr d
        · split
          · rename_i hclose
            subst hclose
            exact .error ⟨hblanks, .unquoted hunquoted, rfl, fun _ => by rw [hr]; simp⟩
          · exact .error ⟨hblanks, .unquoted hunquoted, rfl, fun h => by cases h⟩
termination_by c.rest.length

/-- A directive that cannot be read has its fault at the `@`, or is stuck behind it. -/
theorem directive_eq_error {at_ : Nat} (h : directive at_ c = .error f) :
    f = ⟨.emptyExpression, at_⟩ ∨ ∃ s e, Stuck c f s e := by
  unfold directive at h
  split at h
  · cases h
    exact .inl rfl
  · rename_i x r hr
    split at h
    · rename_i hparen
      subst hparen
      have hopen : Unquoted ['('] := by simp [Unquoted]
      have hends := (ends_readExpr c.next).behind (Spans.next hr) hopen
      split at h
      · rename_i fault hx
        rw [hx] at hends
        cases h
        cases hends with
        | error hs => exact .inr ⟨_, _, hs⟩
      · rename_i y d hx
        rw [hx] at hends
        cases hends with
        | ok hs hp =>
          cases hd : closeParen d with
          | error fault =>
            rw [hd] at h
            cases h
            exact .inr (stuck_closeParen hs hp hd)
          | ok e =>
            rw [hd] at h
            cases h
    · split at h
      · have hends := ends_readNamed (c := c) fun d _ => ends_readExpr d
        rw [h] at hends
        cases hends with
        | error hs => exact .inr ⟨_, _, hs⟩
      · cases h
        exact .inl rfl

end

end Sigil.Template
