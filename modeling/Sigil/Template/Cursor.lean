import Sigil.Template.Tree
import Sigil.Text.Pieces
import Sigil.Text.Position

/-!
# Cursors

A cursor is a place in a template: the byte offset, the character in front of it and the text that
is left. Every move is `advance`, by a number of characters; `between` is the text that a move
passes.
-/

namespace Sigil.Template

/-- A place in a template. -/
structure Cursor where
  offset : Nat
  /-- The character in front. -/
  last : Option Char
  /-- What is left. -/
  rest : List Char
  deriving DecidableEq, Repr

namespace Cursor

def start (s : List Char) : Cursor := ⟨0, none, s⟩

/-- The place `n` characters later, or the end. -/
def advance (n : Nat) (c : Cursor) : Cursor :=
  ⟨c.offset + Text.byteLength (c.rest.take n), (c.rest.take n).getLast?.or c.last, c.rest.drop n⟩

def next (c : Cursor) : Cursor := c.advance 1

def toEnd (c : Cursor) : Cursor := c.advance c.rest.length

def skipWhile (p : Char → Bool) (c : Cursor) : Cursor := c.advance (c.rest.takeWhile p).length

def between (a b : Cursor) : List Char := a.rest.take (a.rest.length - b.rest.length)

/-- The text from one place to a later one, with its offset. -/
def placed (a b : Cursor) : Placed := ⟨String.ofList (between a b), a.offset⟩

/-- Whether a letter or digit stands in front. -/
def afterWord (c : Cursor) : Bool := c.last.any Char.isAlphanum

@[simp] theorem rest_advance (n : Nat) (c : Cursor) : (c.advance n).rest = c.rest.drop n := rfl

@[simp] theorem rest_next (c : Cursor) : c.next.rest = c.rest.drop 1 := rfl

@[simp] theorem rest_toEnd (c : Cursor) : c.toEnd.rest = [] := by simp [toEnd]

theorem drop_takeWhile (p : Char → Bool) (s : List Char) :
    s.drop (s.takeWhile p).length = s.dropWhile p := by
  induction s with
  | nil => rfl
  | cons c r ih => by_cases h : p c <;> simp [h, ih]

@[simp] theorem rest_skipWhile (p : Char → Bool) (c : Cursor) :
    (c.skipWhile p).rest = c.rest.dropWhile p := drop_takeWhile p c.rest

theorem length_skipWhile (p : Char → Bool) (c : Cursor) :
    (c.skipWhile p).rest.length ≤ c.rest.length := by
  rw [rest_skipWhile]
  exact Text.length_dropWhile_le p c.rest

theorem length_advance (n : Nat) (c : Cursor) :
    (c.advance n).rest.length ≤ c.rest.length := by simp

theorem length_next (c : Cursor) : c.next.rest.length ≤ c.rest.length := by simp

theorem length_next_lt {c : Cursor} (h : c.rest ≠ []) : c.next.rest.length < c.rest.length := by
  have := List.length_pos_iff.2 h
  simp only [rest_next, List.length_drop]
  omega

end Cursor
end Sigil.Template
