import Sigil.Template.Directive

/-!
# Attribute values

A quoted value is cut into fragments at blanks and around directives: words, with `@@` read as `@`,
and expressions. Each fragment has the blanks in front of it as its lead; the blanks after the last
fragment belong to the closing quote. An `@` after a letter or digit, or one whose directive has a
fault, is part of a word. The main statement is `length_of_readValue`.
-/

namespace Sigil.Template

open Text

/-- What has been read of a value. -/
structure ValueDraft where
  /-- Where the blanks before the next fragment start. -/
  gap : Cursor
  /-- The word that is being read: its place and its characters so far. -/
  word : Option (Cursor × List Char)
  fragments : List Fragment
  /-- The places of `@@`. -/
  escapes : List Cursor
  faults : List Fault

namespace ValueDraft

def start (c : Cursor) : ValueDraft := ⟨c, none, [], [], []⟩

/-- A character appended to the word, which starts here if there is none. -/
def push (d : ValueDraft) (c : Cursor) (x : Char) : ValueDraft :=
  match d.word with
  | some (w, cs) => { d with word := some (w, cs ++ [x]) }
  | none => { d with word := some (c, [x]) }

/-- The word, if there is one, made a fragment that ends here. -/
def close (d : ValueDraft) (c : Cursor) : ValueDraft :=
  match d.word with
  | some (w, cs) =>
    { d with
      gap := c
      word := none
      fragments := d.fragments ++ [.literal (d.gap.placed w) ⟨String.ofList cs, w.offset⟩] }
  | none => d

def express (d : ValueDraft) (c e : Cursor) (x : Expr) : ValueDraft :=
  let d := d.close c
  { d with
    gap := e
    fragments := d.fragments ++ [.dynamic (d.gap.placed c) x c.offset] }

def escape (d : ValueDraft) (c : Cursor) : ValueDraft :=
  { d.push c '@' with escapes := d.escapes ++ [c] }

def fault (d : ValueDraft) (f : Fault) : ValueDraft := { d with faults := d.faults ++ [f] }

def isDynamic (d : ValueDraft) : Bool :=
  d.fragments.any fun
    | .dynamic .. => true
    | .literal .. => false

end ValueDraft

/-- Reads a value up to its closing quote: what was read, and the place of the quote if there is
one. -/
def readValue (quote : Char) (d : ValueDraft) (c : Cursor) : ValueDraft × Option Cursor :=
  match h : c.rest with
  | [] => (d, none)
  | x :: r =>
    have hc : c.next.rest.length < c.rest.length := Cursor.length_next_lt (by simp [h])
    if x = quote then (d.close c, some c)
    else if isAsciiBlank x then readValue quote (d.close c) c.next
    else if x = '@' then
      if r.head? = some '@' then
        readValue quote (d.escape c) (c.advance 2)
      else if c.afterWord then readValue quote (d.push c '@') c.next
      else
        match h' : directive c.offset c.next with
        | .ok (e, t) =>
          have := length_of_directive h'
          readValue quote (d.express c t e) t
        | .error f => readValue quote ((d.fault f).push c '@') c.next
    else readValue quote (d.push c x) c.next
termination_by c.rest.length
decreasing_by
  all_goals first
    | exact hc
    | (simp only [Cursor.rest_advance, h, List.length_drop, List.length_cons]; omega)
    | omega

theorem length_of_readValue {quote : Char} {d e : ValueDraft} {c t : Cursor}
    (h : readValue quote d c = (e, some t)) :
    t.rest.length ≤ c.rest.length ∧ t.rest.head? = some quote := by
  fun_induction readValue quote d c generalizing e with
  | case1 => simp at h
  | case2 d c r hr =>
    simp only [Prod.mk.injEq, Option.some.injEq] at h
    simp [← h.2, hr]
  | case3 d c x r hr hc _ _ ih => exact ⟨by have := (ih h).1; omega, (ih h).2⟩
  | case4 d c r hr hc _ _ _ ih =>
    exact ⟨Nat.le_trans (ih h).1 (Cursor.length_advance 2 c), (ih h).2⟩
  | case5 d c r hr hc _ _ _ _ ih => exact ⟨by have := (ih h).1; omega, (ih h).2⟩
  | case6 d c r hr hc _ _ _ _ y s hs hl ih => exact ⟨by have := (ih h).1; omega, (ih h).2⟩
  | case7 d c r hr hc _ _ _ _ f hf ih => exact ⟨by have := (ih h).1; omega, (ih h).2⟩
  | case8 d c x r hr hc _ _ _ ih => exact ⟨by have := (ih h).1; omega, (ih h).2⟩

end Sigil.Template
