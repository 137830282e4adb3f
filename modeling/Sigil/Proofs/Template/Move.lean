import Mathlib.Logic.Relation
import Sigil.Proofs.Template.Reading
import Sigil.Template.Reader

/-!
# The moves of the scan

`Move src` lists what the scan of a template can do at a place: keep a character, leave out an
escape, comment, code block or import, write a directive or refuse it, write an attribute, or
give up at a value without a closing quote. The main statement is `moves_of_visits`: from every
state that the scan comes to, it makes such moves up to the end of the template, and what it
gives is the state reached there with the last literal run written.
-/

namespace Sigil.Template

open Text Cursor Relation

/-- A letter, a digit or an `@`: an `@` behind it is text. -/
def guardsAt (x : Char) : Bool := x.isAlphanum || x == '@'

/-! ## States of the scan -/

/-- The scan of a template comes to a place, with what has been read of the template. -/
inductive Visits (src : Source) : Draft → Cursor → Prop where
  | start : Visits src (.start src.text) (.start src.text)
  | step {d : Draft} {c : Cursor} : Visits src d c → c.rest ≠ [] →
      Visits src (step src d c).1 (step src d c).2

/-- The scan of a tag's attributes comes to a place. -/
inductive VisitsTag (src : Source) : Draft → Cursor → Prop where
  | enter {d : Draft} {c : Cursor} {x : Char} {r : List Char} : Visits src d c →
      c.rest = '<' :: x :: r → x.isAlpha = true →
      VisitsTag src d (c.next.skipWhile isTagNamePart)
  | stay {d e : Draft} {c t : Cursor} : VisitsTag src d c → tagStep src d c = .stay e t →
      VisitsTag src e t

/-- An attribute's name, in front of which blanks start at `before`. -/
structure AttributeName (before name nameEnd : Cursor) : Prop where
  name_eq : name = before.skipWhile isAsciiBlank
  starts : ∃ x r, name.rest = x :: r ∧ x ≠ '>' ∧ x ≠ '@' ∧ x ≠ '<' ∧ x ≠ '/' ∧ x ≠ '"' ∧
    x ≠ '\'' ∧ x ≠ '='
  nameEnd_eq : nameEnd = name.next.skipWhile (!endsAttributeName ·)

/-- An attribute with a quoted value whose opening quote stands at `value`. -/
structure AttributeHead (before name nameEnd value : Cursor) (quote : Char) : Prop
    extends AttributeName before name nameEnd where
  equals : (nameEnd.skipWhile isAsciiBlank).rest.head? = some '='
  value_eq : value = (nameEnd.skipWhile isAsciiBlank).next.skipWhile isAsciiBlank
  opens : value.rest.head? = some quote
  quote_eq : quote = '"' ∨ quote = '\''

/-- The scan comes to an attribute value that starts at `v` and has no closing quote. -/
def OpenValue (src : Source) (v : Cursor) : Prop :=
  ∃ d before name nameEnd value quote, VisitsTag src d before ∧
    AttributeHead before name nameEnd value quote ∧ v = value.next ∧
    (readValue quote (.start v) v).2 = none

/-! ## Moves -/

/-- What is left out of the output up to a place, and the faults and imports that come of it. -/
inductive Omits (c : Cursor) : Cursor → List Fault → List String → Prop where
  /-- The first half of `@@`. -/
  | escape {r : List Char} : c.rest = '@' :: '@' :: r → Omits c c.next [] []
  | comment {s : List Char} {e : Cursor} : Spans c ('@' :: '*' :: s) e → Omits c e [] []
  | openComment {r : List Char} : c.rest = '@' :: '*' :: r →
      Omits c c.toEnd [⟨.unterminatedComment, c.offset⟩] []
  | block {s : List Char} {e : Cursor} : Spans c ('@' :: '{' :: s) e →
      Omits c e [⟨.codeBlockUnsupported, c.offset⟩] []
  | namedImport {s name : List Char} {e : Cursor} : Spans c ('@' :: (importWord ++ s)) e →
      name = importName (restOfLine (c.next.advance importWord.length).rest).1 → name ≠ [] →
      Omits c e [] [String.ofList name]
  | emptyImport {s : List Char} {e : Cursor} : Spans c ('@' :: (importWord ++ s)) e →
      Omits c e [⟨.emptyExpression, (c.next.advance importWord.length).offset⟩] []

/-- The literal run up to `c` written, and the text up to `e` left out. -/
def Draft.omit (d : Draft) (c e : Cursor) (fs : List Fault) (is : List String) : Draft :=
  { (d.flush c).resume e with faults := d.faults ++ fs, imports := d.imports ++ is }

section

variable (d : Draft) (c e : Cursor)

theorem Draft.omit_nil : d.omit c e [] [] = (d.flush c).resume e := by
  simp [Draft.omit, resume, flush]

theorem Draft.omit_fault (cause : Cause) (t : Cursor) :
    d.omit c e [⟨cause, t.offset⟩] [] = ((d.flush c).fault cause t).resume e := by
  simp [Draft.omit, resume, flush, fault]

theorem Draft.omit_import (name : String) :
    d.omit c e [] [name] =
      Draft.resume { d.flush c with imports := (d.flush c).imports ++ [name] } e := by
  simp [Draft.omit, resume, flush]

end

/-- A directive at `c`, which ends at `e`, written. -/
def Draft.write (d : Draft) (src : Source) (c e : Cursor) (x : Expr) : Draft :=
  ((d.flush c).emit src c (.write x c.offset)).resume e

/-- One move of the scan. -/
inductive Move (src : Source) : Draft × Cursor → Draft × Cursor → Prop where
  | keep {d : Draft} {c : Cursor} {x : Char} {r : List Char} : c.rest = x :: r →
      (x = '@' → c.last.any guardsAt = true) → Move src (d, c) (d, c.next)
  | omits {d : Draft} {c e : Cursor} {fs : List Fault} {is : List String} : Omits c e fs is →
      Move src (d, c) (d.omit c e fs is, e)
  | write {d : Draft} {c e : Cursor} {x : Expr} {r : List Char} : c.rest = '@' :: r →
      c.afterWord = false → startsWith r importWord = false →
      directive c.offset c.next = .ok (x, e) → Move src (d, c) (d.write src c e x, e)
  | refuse {d : Draft} {c : Cursor} {f : Fault} {r : List Char} : c.rest = '@' :: r →
      directive c.offset c.next = .error f →
      Move src (d, c) ({ d with faults := d.faults ++ [f] }, c.next)
  | dynamic {d : Draft} {before name nameEnd value close : Cursor} {quote : Char}
      {v : ValueDraft} : AttributeHead before name nameEnd value quote →
      readValue quote (.start value.next) value.next = (v, some close) → v.isDynamic = true →
      Move src (d, before) (Draft.attribute { d with faults := d.faults ++ v.faults } src before
        name nameEnd value.next close v, close.next)
  | abandon {d : Draft} {c : Cursor} {quote : Char} {v : ValueDraft} : OpenValue src c →
      readValue quote (.start c) c = (v, none) →
      Move src (d, c) ({ d with faults := d.faults ++ v.faults }, c.toEnd)

abbrev Moves (src : Source) : Draft × Cursor → Draft × Cursor → Prop := ReflTransGen (Move src)

theorem moves_omits (src : Source) (d : Draft) {c e : Cursor} {fs : List Fault} {is : List String}
    (h : Omits c e fs is) : Moves src (d, c) (d.omit c e fs is, e) := .single (.omits h)

/-- No `@` stands between two places. -/
def Clear (c e : Cursor) : Prop := ∃ s, Spans c s e ∧ '@' ∉ s

namespace Clear

variable {a b c : Cursor}

theorem trans (h₁ : Clear a b) (h₂ : Clear b c) : Clear a c := by
  obtain ⟨s, hs, ns⟩ := h₁
  obtain ⟨t, ht, nt⟩ := h₂
  exact ⟨s ++ t, hs.trans ht, by simp [ns, nt]⟩

theorem next {x : Char} {r : List Char} (h : c.rest = x :: r) (hx : x ≠ '@') : Clear c c.next :=
  ⟨[x], Spans.next h, by simpa using hx.symm⟩

theorem skipWhile {p : Char → Bool} (hp : p '@' = false) (c : Cursor) :
    Clear c (c.skipWhile p) := by
  refine ⟨_, Spans.skipWhile p c, fun h => ?_⟩
  have := List.all_eq_true.1 List.all_takeWhile _ h
  simp [hp] at this

end Clear

theorem moves_keep {src : Source} {d : Draft} {c e : Cursor} (h : Clear c e) :
    Moves src (d, c) (d, e) := by
  obtain ⟨s, h, hs⟩ := h
  induction s generalizing c with
  | nil => rw [h.unique (Spans.refl c)]
  | cons x s ih =>
    obtain ⟨y, u, hy, hu⟩ := h.head_next (List.cons_ne_nil x s)
    cases hy
    simp only [List.mem_cons, not_or] at hs
    exact .head (.keep (r := s ++ e.rest) h.rest fun hx => absurd hx.symm hs.1) (ih hu hs.2)

/-! ## Transitions -/

theorem spans_advance_of_prefix {c : Cursor} {s r : List Char} {n : Nat} (hc : c.rest = s ++ r)
    (hn : s.length ≤ n) : ∃ t, Spans c (s ++ t) (c.advance n) := by
  have h := Spans.advance n c
  rw [hc, List.take_append, List.take_of_length_le hn] at h
  exact ⟨_, h⟩

theorem next_next (c : Cursor) : c.next.next = c.advance 2 := by
  rw [next, next, advance_advance]

/-- What the scan can do at an `@` of markup. -/
inductive Transits (src : Source) (d : Draft) (c : Cursor) : Draft × Cursor → Prop where
  | word : c.afterWord = true → Transits src d c (d, c.next)
  | escape {r : List Char} : c.afterWord = false → c.rest = '@' :: '@' :: r →
      Transits src d c ((d.flush c).resume c.next, c.advance 2)
  | omits {e : Cursor} {fs : List Fault} {is : List String} : Omits c e fs is →
      c.next.rest.head? ≠ some '@' → Transits src d c (d.omit c e fs is, e)
  | write {e : Cursor} {x : Expr} : c.afterWord = false →
      startsWith c.next.rest importWord = false → directive c.offset c.next = .ok (x, e) →
      Transits src d c (d.write src c e x, e)
  | refuse {f : Fault} : directive c.offset c.next = .error f →
      Transits src d c ({ d with faults := d.faults ++ [f] }, c.next)

theorem transits_import {src : Source} {d : Draft} {c : Cursor} {r : List Char}
    (hc : c.rest = '@' :: (importWord ++ r)) :
    Transits src d c (readImport (d.flush c) (c.next.advance importWord.length)) := by
  have hs : ∀ n, ∃ t, Spans c ('@' :: (importWord ++ t))
      ((c.next.advance importWord.length).advance n) := by
    intro n
    rw [next_advance, advance_advance]
    exact spans_advance_of_prefix (c := c) (s := '@' :: importWord) hc (by simp)
  have hat : c.next.rest.head? ≠ some '@' := by
    rw [rest_next, hc]
    simp [importWord]
  obtain ⟨t, ht⟩ := hs (restOfLine (c.next.advance importWord.length).rest).2
  by_cases hname : importName (restOfLine (c.next.advance importWord.length).rest).1 = []
  · have : Transits src d c _ := .omits (.emptyImport ht) hat
    simpa only [readImport, hname, List.isEmpty_nil, if_true, Draft.omit_fault] using this
  · have : Transits src d c _ := .omits (.namedImport ht rfl hname) hat
    simpa only [readImport, List.isEmpty_iff, hname, if_false, Draft.omit_import] using this

theorem transits_transition {src : Source} {d : Draft} {c : Cursor} {r : List Char}
    (hc : c.rest = '@' :: r) : Transits src d c (transition src d c) := by
  have hn : c.next.rest = r := by simp [hc]
  unfold transition
  split
  · exact .word ‹_›
  · rename_i hw
    rw [Bool.not_eq_true] at hw
    split
    · rename_i u hu
      rw [hn] at hu
      exact .escape hw (hu ▸ hc)
    · rename_i u hu
      have hat : c.next.rest.head? ≠ some '@' := by
        rw [hu]
        simp
      rw [hn] at hu
      subst hu
      split
      · rename_i n _
        obtain ⟨t, ht⟩ := spans_advance_of_prefix (c := c) (s := ['@', '*']) (r := u) (n := 2 + n)
          hc (by simp)
        have : Transits src d c _ := .omits (.comment ht) hat
        rw [Draft.omit_nil, ← advance_advance] at this
        exact this
      · have : Transits src d c _ := .omits (.openComment hc) hat
        rwa [Draft.omit_fault] at this
    · rename_i u hu
      have hat : c.next.rest.head? ≠ some '@' := by
        rw [hu]
        simp
      rw [hn] at hu
      subst hu
      have hb : balancedLength 0 ('{' :: u) = balancedLength 1 u + 1 := by simp [balancedLength]
      obtain ⟨t, ht⟩ := spans_advance_of_prefix (c := c) (s := ['@', '{']) (r := u)
        (n := balancedLength 1 u + 2) hc (by simp)
      have : Transits src d c _ := .omits (.block ht) hat
      simp only [hn, hb, next_advance]
      rwa [Draft.omit_fault] at this
    · split
      · rename_i hi
        obtain ⟨u, hu⟩ := Option.isSome_iff_exists.1 hi
        rw [after?_eq_some_iff, hn] at hu
        exact transits_import (hu ▸ hc)
      · rename_i hi
        split
        · exact .write hw (Bool.eq_false_iff.2 hi) ‹_›
        · exact .refuse ‹_›

theorem isAlphanum_guards {c : Cursor} (h : c.afterWord = true) :
    c.last.any guardsAt = true := by
  rw [afterWord] at h
  cases hl : c.last with
  | none => simp [hl] at h
  | some l =>
    simp only [hl, Option.any_some] at h ⊢
    simp [guardsAt, h]

theorem moves_transition {src : Source} {d : Draft} {c : Cursor} {r : List Char}
    (hc : c.rest = '@' :: r) : Moves src (d, c) (transition src d c) := by
  have hn : c.next.rest = r := by simp [hc]
  have h : Transits src d c _ := transits_transition hc
  generalize transition src d c = y at h ⊢
  cases h with
  | word hw => exact .single (.keep hc fun _ => isAlphanum_guards hw)
  | @escape u _ hu =>
    have hs : c.next.last.any guardsAt = true := by
      rw [last_next hc]
      rfl
    have hr : c.next.rest = '@' :: u := by simp [hu]
    have := (moves_omits src d (.escape hu)).tail (.keep hr fun _ => hs)
    rwa [Draft.omit_nil, next_next] at this
  | omits ho => exact moves_omits src d ho
  | write hw hi hx => exact .single (.write hc hw (hn ▸ hi) hx)
  | refuse hf => exact .single (.refuse hc hf)

/-! ## Values without an expression -/

/-- The literal text of a value that has been read: its faults, and a cut at each escape. -/
def Draft.plain (d : Draft) (v : ValueDraft) : Draft :=
  v.escapes.foldl (fun d e => (d.flush e).resume e.next) { d with faults := d.faults ++ v.faults }

namespace ValueDraft

variable (v : ValueDraft) (c e : Cursor) (x : Char)

@[simp] theorem escapes_push : (v.push c x).escapes = v.escapes := by
  unfold push
  split <;> rfl

@[simp] theorem faults_push : (v.push c x).faults = v.faults := by
  unfold push
  split <;> rfl

@[simp] theorem fragments_push : (v.push c x).fragments = v.fragments := by
  unfold push
  split <;> rfl

@[simp] theorem gap_push : (v.push c x).gap = v.gap := by
  unfold push
  split <;> rfl

@[simp] theorem escapes_close : (v.close c).escapes = v.escapes := by
  unfold close
  split <;> rfl

@[simp] theorem faults_close : (v.close c).faults = v.faults := by
  unfold close
  split <;> rfl

@[simp] theorem isDynamic_push : (v.push c x).isDynamic = v.isDynamic := by
  rw [isDynamic, fragments_push, isDynamic]

@[simp] theorem isDynamic_close : (v.close c).isDynamic = v.isDynamic := by
  unfold close isDynamic
  split <;> simp

@[simp] theorem isDynamic_escape : (v.escape c).isDynamic = v.isDynamic :=
  isDynamic_push v c '@'

@[simp] theorem isDynamic_fault (f : Fault) : (v.fault f).isDynamic = v.isDynamic := rfl

@[simp] theorem isDynamic_express (y : Expr) : (v.express c e y).isDynamic = true := by
  simp [express, isDynamic]

end ValueDraft

section Plain

variable (d : Draft) (v : ValueDraft) (c : Cursor) (x : Char)

theorem foldl_flush_faults (es : List Cursor) (fs : List Fault) :
    es.foldl (fun d e => (d.flush e).resume e.next) { d with faults := fs } =
      { es.foldl (fun d e => (d.flush e).resume e.next) d with faults := fs } := by
  induction es generalizing d with
  | nil => rfl
  | cons e es ih => exact ih ((d.flush e).resume e.next)

theorem faults_plain : (d.plain v).faults = d.faults ++ v.faults := by
  rw [Draft.plain, foldl_flush_faults]

@[simp] theorem plain_start : d.plain (.start c) = d := by
  simp [Draft.plain, ValueDraft.start]

@[simp] theorem plain_push : d.plain (v.push c x) = d.plain v := by
  simp [Draft.plain]

@[simp] theorem plain_close : d.plain (v.close c) = d.plain v := by
  simp [Draft.plain]

theorem plain_escape : d.plain (v.escape c) = ((d.plain v).flush c).resume c.next := by
  simp [Draft.plain, ValueDraft.escape]

theorem plain_fault (f : Fault) :
    d.plain (v.fault f) = { d.plain v with faults := (d.plain v).faults ++ [f] } := by
  rw [faults_plain, Draft.plain, Draft.plain, foldl_flush_faults d (v.fault f).escapes,
    foldl_flush_faults d v.escapes]
  simp only [ValueDraft.fault, List.append_assoc]

end Plain

theorem isDynamic_readValue (quote : Char) {v : ValueDraft} (c : Cursor)
    (h : v.isDynamic = true) : (readValue quote v c).1.isDynamic = true := by
  fun_induction readValue quote v c with
  | case1 => exact h
  | case2 => simpa using h
  | case3 _ _ _ _ _ _ _ _ ih => exact ih (by simpa using h)
  | case4 _ _ _ _ _ _ _ _ ih => exact ih (by simpa using h)
  | case5 _ _ _ _ _ _ _ _ _ ih => exact ih (by simpa using h)
  | case6 _ _ _ _ _ _ _ _ _ _ _ _ _ ih => exact ih (by simp)
  | case7 _ _ _ _ _ _ _ _ _ _ _ ih => exact ih (by simpa using h)
  | case8 _ _ _ _ _ _ _ _ _ ih => exact ih (by simpa using h)

/-- A value without an expression is literal text with a cut at each escape. -/
theorem moves_readValue (src : Source) (d : Draft) {quote : Char} {v w : ValueDraft}
    {c t : Cursor} (h : readValue quote v c = (w, some t)) (hw : w.isDynamic = false) :
    Moves src (d.plain v, c) (d.plain w, t) := by
  fun_induction readValue quote v c generalizing w with
  | case1 => simp at h
  | case2 v c r hr =>
    simp only [Prod.mk.injEq, Option.some.injEq] at h
    rw [← h.1, ← h.2, plain_close]
  | case3 v c x r hr _ hq hb ih =>
    have hx : x ≠ '@' := by
      rintro rfl
      exact absurd hb (by decide)
    have := ih h hw
    rw [plain_close] at this
    exact .head (.keep hr fun e => absurd e hx) this
  | case4 v c r hn hr _ hq hb ih =>
    obtain ⟨u, rfl⟩ := List.head?_eq_some_iff.1 hn
    have := ih h hw
    rw [plain_escape, ← next_next] at this
    have hl : c.next.last.any guardsAt = true := by
      rw [last_next hr]
      rfl
    have hu : c.next.rest = '@' :: u := by simp [hr]
    refine .head (.omits (.escape hr)) (.head (.keep hu fun _ => hl) ?_)
    rwa [Draft.omit_nil]
  | case5 v c r hn ha hr _ hq hb ih =>
    have := ih h hw
    rw [plain_push] at this
    exact .head (.keep hr fun _ => isAlphanum_guards ha) this
  | case6 v c r hn ha y s hs hl hr _ hq hb ih =>
    have := isDynamic_readValue quote s (ValueDraft.isDynamic_express v c s y)
    rw [h] at this
    exact absurd (hw.symm.trans this) (by decide)
  | case7 v c r hn ha f hf hr _ hq hb ih =>
    have := ih h hw
    rw [plain_push, plain_fault] at this
    exact .head (.refuse hr hf) this
  | case8 v c x r hr _ hq hb hx ih =>
    have := ih h hw
    rw [plain_push] at this
    exact .head (.keep hr fun e => absurd e hx) this

/-! ## Tags -/

theorem AttributeName.clear {before name nameEnd : Cursor} (h : AttributeName before name nameEnd) :
    Clear before name ∧ Clear name nameEnd := by
  obtain ⟨x, r, hr, -, hat, -⟩ := h.starts
  refine ⟨?_, ?_⟩
  · rw [h.name_eq]
    exact .skipWhile (by decide) before
  · rw [h.nameEnd_eq]
    exact (Clear.next hr hat).trans (.skipWhile (by decide) name.next)

theorem clear_equals {nameEnd value : Cursor}
    (heq : (nameEnd.skipWhile isAsciiBlank).rest.head? = some '=')
    (hv : value = (nameEnd.skipWhile isAsciiBlank).next.skipWhile isAsciiBlank) :
    Clear nameEnd value := by
  obtain ⟨r, hr⟩ := List.head?_eq_some_iff.1 heq
  have hb : isAsciiBlank '@' = false := by decide
  rw [hv]
  exact (Clear.skipWhile hb nameEnd).trans
    ((Clear.next hr (by decide)).trans (.skipWhile hb _))

namespace AttributeHead

variable {before name nameEnd value : Cursor} {quote : Char}

theorem ne_at (h : AttributeHead before name nameEnd value quote) : quote ≠ '@' := by
  rcases h.quote_eq with rfl | rfl <;> decide

theorem rest_value (h : AttributeHead before name nameEnd value quote) :
    ∃ r, value.rest = quote :: r := List.head?_eq_some_iff.1 h.opens

theorem clear_value (h : AttributeHead before name nameEnd value quote) :
    Clear nameEnd value.next := by
  obtain ⟨v, hv⟩ := h.rest_value
  exact (clear_equals h.equals h.value_eq).trans (.next hv h.ne_at)

theorem clear_next (h : AttributeHead before name nameEnd value quote) : Clear before value.next :=
  h.clear.1.trans (h.clear.2.trans h.clear_value)

theorem tagStep_eq (h : AttributeHead before name nameEnd value quote) (src : Source) (d : Draft) :
    tagStep src d before = quotedStep src d before name nameEnd value quote := by
  obtain ⟨x, r, hr, h₁, h₂, h₃, h₄, h₅, h₆, h₇⟩ := h.starts
  obtain ⟨r', hr'⟩ := h.rest_value
  unfold tagStep
  simp only [← h.name_eq, hr, h₁, h₂, h₃, h₄, h₅, h₆, h₇, if_false, or_self, ← h.nameEnd_eq]
  unfold valueStep
  simp only [h.equals, ← h.value_eq, hr', ne_eq, not_true, if_false]
  rw [if_neg]
  rintro ⟨n₁, n₂⟩
  rcases h.quote_eq with rfl | rfl
  · exact n₁ rfl
  · exact n₂ rfl

end AttributeHead

/-- What a step through a tag can do. -/
inductive Strides (src : Source) (d : Draft) (c : Cursor) : TagStep → Prop where
  /-- Out of the tag at its end, or in front of what cannot stand in it. -/
  | out : (∀ x ∈ (c.skipWhile isAsciiBlank).rest.head?, x = '@' ∨ x = '<') →
      Strides src d c (.leave d (c.skipWhile isAsciiBlank))
  | close {r : List Char} : (c.skipWhile isAsciiBlank).rest = '>' :: r →
      Strides src d c (.leave d (c.skipWhile isAsciiBlank).next)
  /-- Past a character that starts no name. -/
  | mark {x : Char} {r : List Char} : (c.skipWhile isAsciiBlank).rest = x :: r →
      x = '/' ∨ x = '"' ∨ x = '\'' ∨ x = '=' →
      Strides src d c (.stay d (c.skipWhile isAsciiBlank).next)
  /-- Past a name without a value. -/
  | bare {name nameEnd : Cursor} : AttributeName c name nameEnd →
      (nameEnd.skipWhile isAsciiBlank).rest.head? ≠ some '=' → Strides src d c (.stay d nameEnd)
  /-- Up to a value without a quote. -/
  | unquoted {name nameEnd value : Cursor} : AttributeName c name nameEnd →
      (nameEnd.skipWhile isAsciiBlank).rest.head? = some '=' →
      value = (nameEnd.skipWhile isAsciiBlank).next.skipWhile isAsciiBlank →
      (∀ x ∈ value.rest.head?, x ≠ '"' ∧ x ≠ '\'') → Strides src d c (.stay d value)
  | quoted {name nameEnd value : Cursor} {quote : Char} :
      AttributeHead c name nameEnd value quote →
      Strides src d c (quotedStep src d c name nameEnd value quote)

theorem strides_valueStep {src : Source} {d : Draft} {c name nameEnd : Cursor}
    (h : AttributeName c name nameEnd) : Strides src d c (valueStep src d c name nameEnd) := by
  unfold valueStep
  simp only
  split
  · exact .bare h ‹_›
  · rename_i heq
    rw [not_not] at heq
    split
    · rename_i hr
      exact .unquoted h heq rfl (by rw [hr]; simp)
    · rename_i x r hr
      split
      · rename_i hq
        exact .unquoted h heq rfl (by rw [hr]; simpa using hq)
      · rename_i hq
        rw [not_and_or, not_not, not_not] at hq
        exact .quoted ⟨h, heq, rfl, by rw [hr]; rfl, hq⟩

theorem strides_tagStep (src : Source) (d : Draft) (c : Cursor) :
    Strides src d c (tagStep src d c) := by
  unfold tagStep
  simp only
  split
  · rename_i hr
    exact .out (by rw [hr]; simp)
  · rename_i x r hx
    split
    · rename_i hgt
      exact .close (hgt ▸ hx)
    · rename_i hgt
      split
      · rename_i hat
        exact .out (by rw [hx]; simpa using hat)
      · rename_i hat
        rw [not_or] at hat
        split
        · exact .mark hx ‹_›
        · rename_i hother
          simp only [not_or] at hother
          exact strides_valueStep ⟨rfl, ⟨x, r, hx, hgt, hat.1, hat.2, hother⟩, rfl⟩

/-- A step through a tag passes text without an `@`, or reads a quoted value. -/
theorem tagStep_cases (src : Source) (d : Draft) (c : Cursor) :
    (∃ e, Clear c e ∧ (tagStep src d c = .leave d e ∨ tagStep src d c = .stay d e)) ∨
    (∃ name nameEnd value quote, AttributeHead c name nameEnd value quote) := by
  have hname := Clear.skipWhile (p := isAsciiBlank) (by decide) c
  have h := strides_tagStep src d c
  generalize tagStep src d c = y at h ⊢
  cases h with
  | out => exact .inl ⟨_, hname, .inl rfl⟩
  | close hr => exact .inl ⟨_, hname.trans (.next hr (by decide)), .inl rfl⟩
  | mark hr hx =>
    refine .inl ⟨_, hname.trans (.next hr ?_), .inr rfl⟩
    rcases hx with rfl | rfl | rfl | rfl <;> decide
  | bare h => exact .inl ⟨_, h.clear.1.trans h.clear.2, .inr rfl⟩
  | unquoted h heq hv =>
    exact .inl ⟨_, h.clear.1.trans (h.clear.2.trans (clear_equals heq hv)), .inr rfl⟩
  | quoted h => exact .inr ⟨_, _, _, _, h⟩

theorem toEnd_eq {c e : Cursor} {s : List Char} (h : Spans c s e) : e.toEnd = c.toEnd := by
  have := h.trans (Spans.toEnd e)
  rw [← h.rest] at this
  exact this.unique (Spans.toEnd c)

/-- The step of a quoted value is a run of moves to where it leads. -/
theorem moves_quotedStep {src : Source} {d : Draft} {before name nameEnd value : Cursor}
    {quote : Char} (hd : VisitsTag src d before)
    (h : AttributeHead before name nameEnd value quote) :
    ∃ e t, Moves src (d, before) (e, t) ∧
      (quotedStep src d before name nameEnd value quote = .leave e t ∨
        quotedStep src d before name nameEnd value quote = .stay e t) := by
  unfold quotedStep
  split
  · rename_i v hv
    refine ⟨_, _, ?_, .inl rfl⟩
    obtain ⟨s, hs, -⟩ := h.clear_next
    rw [← toEnd_eq hs]
    exact (moves_keep h.clear_next).tail
      (.abandon ⟨d, before, name, nameEnd, value, quote, hd, h, rfl, by rw [hv]⟩ hv)
  · rename_i v close hv
    refine ⟨_, _, ?_, .inr rfl⟩
    by_cases hdyn : v.isDynamic = true
    · exact .single (.dynamic h hv hdyn)
    · obtain ⟨r, hr⟩ := List.head?_eq_some_iff.1 (length_of_readValue hv).2
      have hm := moves_readValue src d hv (Bool.eq_false_iff.2 hdyn)
      rw [plain_start] at hm
      simp only [Draft.attribute, hdyn]
      exact (moves_keep h.clear_next).trans
        (hm.trans (moves_keep (.next hr h.ne_at)))

theorem moves_tagStep {src : Source} {d : Draft} {c : Cursor} (hd : VisitsTag src d c) :
    ∃ e t, Moves src (d, c) (e, t) ∧
      (tagStep src d c = .leave e t ∨ tagStep src d c = .stay e t) := by
  rcases tagStep_cases src d c with ⟨e, he, h⟩ | ⟨name, nameEnd, value, quote, h⟩
  · exact ⟨d, e, moves_keep he, h⟩
  · rw [h.tagStep_eq]
    exact moves_quotedStep hd h

theorem moves_attributes {src : Source} {d : Draft} {c : Cursor} (hd : VisitsTag src d c) :
    Moves src (d, c) (attributes src d c) := by
  fun_induction attributes src d c with
  | case1 d c d' e h =>
    obtain ⟨e', t, hm, he | he⟩ := moves_tagStep hd
    · rw [h] at he
      cases he
      exact hm
    · rw [h] at he
      cases he
  | case2 d c d' e h hlt ih =>
    obtain ⟨e', t, hm, he | he⟩ := moves_tagStep hd
    · rw [h] at he
      cases he
    · rw [h] at he
      cases he
      exact hm.trans (ih (.stay hd h))

/-! ## The scan -/

theorem clear_tagName {c : Cursor} {r : List Char} (hc : c.rest = '<' :: r) :
    Clear c (c.next.skipWhile isTagNamePart) :=
  (Clear.next hc (by decide)).trans (.skipWhile (by decide) c.next)

theorem moves_step {src : Source} {d : Draft} {c : Cursor} (hd : Visits src d c)
    (hc : c.rest ≠ []) : Moves src (d, c) (step src d c) := by
  unfold step
  split
  · rename_i r hr
    exact moves_transition hr
  · rename_i x r hr
    split
    · rename_i hx
      exact (moves_keep (clear_tagName hr)).trans (moves_attributes (.enter hd hr hx))
    · exact moves_keep (.next hr (by decide))
  · rename_i hat _
    obtain ⟨x, r, hr⟩ := List.exists_cons_of_ne_nil hc
    exact moves_keep (.next hr fun h => hat r (h ▸ hr))

/-- The scan makes moves up to the end of the template. -/
theorem moves_of_visits {src : Source} {d : Draft} {c : Cursor} (hd : Visits src d c) :
    ∃ e t, Moves src (d, c) (e, t) ∧ t.rest = [] ∧ scan src d c = e.flush t := by
  fun_induction scan src d c with
  | case1 d c h => exact ⟨d, c, .refl, h, rfl⟩
  | case2 d c h hlt ih =>
    obtain ⟨e, t, hm, ht, he⟩ := ih (.step hd h)
    exact ⟨e, t, (moves_step hd h).trans hm, ht, he⟩

theorem moves_of_start (src : Source) :
    ∃ e t, Moves src (.start src.text, .start src.text) (e, t) ∧ t.rest = [] ∧
      scanned src = e.flush t := moves_of_visits .start

/-! ## What the states of the scan lead to -/

theorem attributes_stay {src : Source} {d e : Draft} {c t : Cursor}
    (h : tagStep src d c = .stay e t) : attributes src d c = attributes src e t := by
  rw [attributes]
  split
  · rename_i h'
    rw [h] at h'
    cases h'
  · rename_i h'
    rw [h] at h'
    cases h'
    rfl

theorem attributes_leave {src : Source} {d e : Draft} {c t : Cursor}
    (h : tagStep src d c = .leave e t) : attributes src d c = (e, t) := by
  rw [attributes]
  split
  · rename_i h'
    rw [h] at h'
    cases h'
    rfl
  · rename_i h'
    rw [h] at h'
    cases h'

theorem step_tag (src : Source) (d : Draft) {c : Cursor} {x : Char} {r : List Char}
    (hc : c.rest = '<' :: x :: r) (hx : x.isAlpha = true) :
    step src d c = attributes src d (c.next.skipWhile isTagNamePart) := by
  unfold step
  rw [hc]
  simp only
  rw [if_pos hx]
  rfl

theorem step_at (src : Source) (d : Draft) {c : Cursor} {r : List Char} (hc : c.rest = '@' :: r) :
    step src d c = transition src d c := by
  unfold step
  rw [hc]
  rfl

theorem transition_escape (src : Source) (d : Draft) {c : Cursor} {r : List Char}
    (hc : c.rest = '@' :: '@' :: r) (hw : c.afterWord = false) :
    transition src d c = ((d.flush c).resume c.next, c.advance 2) := by
  have hn : c.next.rest = '@' :: r := by simp [hc]
  unfold transition
  rw [if_neg (by simp [hw]), hn]
  rfl

theorem step_other (src : Source) (d : Draft) {c : Cursor} {x : Char} {r : List Char}
    (hc : c.rest = x :: r) (hx : x ≠ '@')
    (hr : x = '<' → ∀ y ∈ r.head?, y.isAlpha = false) : step src d c = (d, c.next) := by
  unfold step
  split
  · rename_i h
    rw [hc] at h
    cases h
    exact absurd rfl hx
  · rename_i h
    rw [hc] at h
    cases h
    rw [if_neg (by simpa using hr rfl)]
  · rfl

theorem scan_step (src : Source) (d : Draft) {c : Cursor} (hc : c.rest ≠ []) :
    scan src d c = scan src (step src d c).1 (step src d c).2 := by
  rw [scan, dif_neg hc]

/-- The scan of the template is the scan from any state that it comes to. -/
theorem scanned_of_visits {src : Source} {d : Draft} {c : Cursor} (h : Visits src d c) :
    scanned src = scan src d c := by
  induction h with
  | start => rfl
  | step _ hc ih => exact ih.trans (scan_step src _ hc)

theorem scanned_of_visitsTag {src : Source} {d : Draft} {c : Cursor} (h : VisitsTag src d c) :
    scanned src = scan src (attributes src d c).1 (attributes src d c).2 := by
  induction h with
  | enter h hr hx =>
    rw [scanned_of_visits h, scan_step src _ (hr ▸ List.cons_ne_nil _ _), step_tag src _ hr hx]
  | stay _ ht ih => rw [ih, attributes_stay ht]

theorem visits_of_visitsTag {src : Source} {d : Draft} {c : Cursor} (h : VisitsTag src d c) :
    Visits src (attributes src d c).1 (attributes src d c).2 := by
  induction h with
  | enter h hr hx =>
    rw [← step_tag src _ hr hx]
    exact h.step (hr ▸ List.cons_ne_nil _ _)
  | stay _ ht ih => rwa [attributes_stay ht] at ih

theorem moves_to_visit {src : Source} {d : Draft} {c : Cursor} (h : Visits src d c) :
    Moves src (.start src.text, .start src.text) (d, c) := by
  induction h with
  | start => exact .refl
  | step h hc ih => exact ih.trans (moves_step h hc)

theorem moves_to_visitTag {src : Source} {d : Draft} {c : Cursor} (h : VisitsTag src d c) :
    Moves src (.start src.text, .start src.text) (d, c) := by
  induction h with
  | @enter d c x r h hr hx =>
    exact (moves_to_visit h).trans (moves_keep (clear_tagName hr))
  | stay h ht ih =>
    obtain ⟨e, t, hm, he | he⟩ := moves_tagStep h
    · rw [ht] at he
      cases he
    · rw [ht] at he
      cases he
      exact ih.trans hm

end Sigil.Template
