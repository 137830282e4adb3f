import Sigil.Decimal.Natural
import Sigil.Json.Basic
import Sigil.Text.Pieces

/-!
# Numerals

`Numeral.read` reads the longest JSON numeral at the start of a text; `Numeral.number?` is the
number that it denotes. Digits count while they fit into 64 bits. A whole numeral that fits is
exact; any other is scaled by its power of ten in binary64, and one that is too large for that has
no number.
-/

namespace Sigil

open Decimal

/-- A numeral as written. -/
structure Numeral where
  minus : Bool
  whole : List Char
  /-- The digits after the point; none without a point. -/
  places : List Char
  /-- Whether the exponent is negative, and its digits. -/
  exponent : Option (Bool × List Char)
  deriving DecidableEq, Repr

namespace Numeral

/-- The digits before the point: one zero, or digits that do not start with a zero. -/
def readWhole : List Char → Option (List Char × List Char)
  | '0' :: r => some (['0'], r)
  | c :: r =>
    if c.isDigit then some (c :: r.takeWhile Char.isDigit, r.dropWhile Char.isDigit) else none
  | [] => none

/-- A point and at least one digit, if there is a point. -/
def readPlaces : List Char → Option (List Char × List Char)
  | '.' :: r =>
    if (r.takeWhile Char.isDigit).isEmpty then none
    else some (r.takeWhile Char.isDigit, r.dropWhile Char.isDigit)
  | s => some ([], s)

/-- A sign in front of an exponent: whether it is a minus, and what follows. -/
def readSign : List Char → Bool × List Char
  | '-' :: r => (true, r)
  | '+' :: r => (false, r)
  | s => (false, s)

/-- An exponent with at least one digit, if there is one. -/
def readExponent (s : List Char) : Option (Option (Bool × List Char) × List Char) :=
  match s with
  | c :: r =>
    if c = 'e' ∨ c = 'E' then
      let (minus, r) := readSign r
      if (r.takeWhile Char.isDigit).isEmpty then none
      else some (some (minus, r.takeWhile Char.isDigit), r.dropWhile Char.isDigit)
    else some (none, s)
  | [] => some (none, s)

def readUnsigned (minus : Bool) (s : List Char) : Option (Numeral × List Char) := do
  let (whole, s) ← readWhole s
  let (places, s) ← readPlaces s
  let (exponent, s) ← readExponent s
  return (⟨minus, whole, places, exponent⟩, s)

def read : List Char → Option (Numeral × List Char)
  | '-' :: r => readUnsigned true r
  | s => readUnsigned false s

/-- Digits appended to a significand while it fits: the significand, the number of digits used and
the number of digits left. -/
def append (n : Nat) : List Char → Nat × Nat × Nat
  | [] => (n, 0, 0)
  | c :: r =>
    let next := 10 * n + digitValue c
    if next < bound64 then
      let (m, used, left) := append next r
      (m, used + 1, left)
    else (n, 0, r.length + 1)

def exponentValue (x : Numeral) : Int :=
  match x.exponent with
  | none => 0
  | some (true, ds) => -(ofDigits ds : Int)
  | some (false, ds) => ofDigits ds

/-- Whether the numeral has neither a point nor an exponent. -/
def isWhole (x : Numeral) : Bool := x.places.isEmpty && x.exponent.isNone

/-- The number denoted; `none` beyond the largest binary64 number. -/
def number? (x : Numeral) : Option Number :=
  let (n, _, left) := append 0 x.whole
  if x.isWhole ∧ left = 0 ∧ (x.minus = false ∨ 0 < n ∧ n ≤ pow2 63) then
    some (if x.minus then .negative n else .whole n)
  else
    let (m, used, _) := append n x.places
    (Magnitude.ofDecimal m (left - used + x.exponentValue)).map (.float x.minus)

theorem length_of_readWhole {s t w : List Char} (h : readWhole s = some (w, t)) :
    t.length < s.length := by
  unfold readWhole at h
  split at h
  · simp only [Option.some.injEq, Prod.mk.injEq] at h
    simp [← h.2]
  · rename_i c r _
    split at h
    · simp only [Option.some.injEq, Prod.mk.injEq] at h
      have := Text.length_dropWhile_le Char.isDigit r
      simp only [← h.2, List.length_cons]
      omega
    · cases h
  · cases h

theorem length_of_readPlaces {s t w : List Char} (h : readPlaces s = some (w, t)) :
    t.length ≤ s.length := by
  unfold readPlaces at h
  split at h
  · rename_i r
    split at h
    · cases h
    · simp only [Option.some.injEq, Prod.mk.injEq] at h
      have := Text.length_dropWhile_le Char.isDigit r
      simp only [← h.2, List.length_cons]
      omega
  · simp only [Option.some.injEq, Prod.mk.injEq] at h
    simp [h.2]

theorem length_readSign (s : List Char) : (readSign s).2.length ≤ s.length := by
  unfold readSign
  split <;> simp

theorem length_of_readExponent {s t : List Char} {x : Option (Bool × List Char)}
    (h : readExponent s = some (x, t)) : t.length ≤ s.length := by
  unfold readExponent at h
  split at h
  · rename_i c r
    split at h
    · simp only at h
      split at h
      · cases h
      · simp only [Option.some.injEq, Prod.mk.injEq] at h
        have := Text.length_dropWhile_le Char.isDigit (readSign r).2
        have := length_readSign r
        simp only [← h.2, List.length_cons]
        omega
    · simp only [Option.some.injEq, Prod.mk.injEq] at h
      simp [h.2]
  · simp only [Option.some.injEq, Prod.mk.injEq] at h
    simp [h.2]

theorem length_of_read {s t : List Char} {x : Numeral} (h : read s = some (x, t)) :
    t.length < s.length := by
  have unsigned : ∀ {m : Bool} {s : List Char}, readUnsigned m s = some (x, t) →
      t.length < s.length := by
    intro m s h
    simp only [readUnsigned, Option.bind_eq_bind, Option.bind_eq_some_iff, Prod.exists,
      Option.pure_def, Option.some.injEq, Prod.mk.injEq] at h
    obtain ⟨_, _, h₁, _, _, h₂, _, _, h₃, _, rfl⟩ := h
    have := length_of_readWhole h₁
    have := length_of_readPlaces h₂
    have := length_of_readExponent h₃
    omega
  unfold read at h
  split at h
  · have := unsigned h
    simp only [List.length_cons]
    omega
  · exact unsigned h

end Numeral
end Sigil
