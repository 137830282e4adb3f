import Sigil.Decimal.Natural

/-!
# Binary64 magnitudes

A finite 64-bit floating-point number without its sign is `m * 2^e` units of `2^-1074`, where `m`
has at most 53 bits and uses all of them unless `e = 0`. Everything here is exact arithmetic on
natural numbers: `nearest` rounds a quotient to the nearest magnitude, ties to an even `m`, and
`ofDecimal` scales a whole number by a power of ten with one rounding for each step.
-/

namespace Sigil.Decimal

/-- The magnitude `m * 2^e` in units of `2^-1074`. -/
structure Magnitude where
  m : Nat
  e : Nat
  deriving DecidableEq, Repr

namespace Magnitude

/-- The bits of a significand. -/
def precision : Nat := 53

/-- One is `2^oneExp` units. -/
def oneExp : Nat := 1074

/-- The exponent of the largest finite magnitudes. -/
def maxExp : Nat := 2045

def zero : Magnitude := ⟨0, 0⟩

def isZero (x : Magnitude) : Bool := x.m == 0

/-- The magnitude in units of `2^-1074`. -/
def units (x : Magnitude) : Nat := x.m * pow2 x.e

/-- The quotient rounded to a whole number, a half to the even neighbour. -/
def roundHalfEven (num den : Nat) : Nat :=
  let q := num / den
  let twice := 2 * (num % den)
  if twice < den then q
  else if den < twice then q + 1
  else if q % 2 = 0 then q else q + 1

/-- The magnitude nearest to `num / den` units; `none` beyond the largest one. -/
def ofUnits (num den : Nat) : Option Magnitude :=
  let e := (num / den).log2 + 1 - precision
  let m := roundHalfEven num (den * pow2 e)
  let x : Magnitude := if m = pow2 precision then ⟨pow2 (precision - 1), e + 1⟩ else ⟨m, e⟩
  if x.e ≤ maxExp then some x else none

def nearest (num den : Nat) : Option Magnitude := ofUnits (num * pow2 oneExp) den

def mul (x y : Magnitude) : Option Magnitude := ofUnits (x.units * y.units) (pow2 oneExp)

/-- The rounded quotient; the divisor is not zero. -/
def div (x y : Magnitude) : Option Magnitude := ofUnits (x.units * pow2 oneExp) y.units

/-- The greatest power of ten that is a magnitude. -/
def maxPower : Nat := 308

def tenTo (k : Nat) : Option Magnitude := nearest (pow10 k) 1

/-- Divided by ten to the `k`, in steps that each divide by a power of ten that is a magnitude. -/
def divTen (x : Magnitude) (k : Nat) : Option Magnitude :=
  if maxPower < k then
    if x.isZero then some x
    else do divTen (← x.div (← tenTo maxPower)) (k - maxPower)
  else do x.div (← tenTo k)
termination_by k
decreasing_by
  simp only [maxPower] at *
  omega

/-- The significand, scaled by a power of ten; `none` when it is too large. -/
def ofDecimal (significand : Nat) (exponent : Int) : Option Magnitude := do
  let x ← nearest significand 1
  match exponent with
  | .ofNat k =>
    if maxPower < k then if x.isZero then some x else none
    else x.mul (← tenTo k)
  | .negSucc k => x.divTen (k + 1)

example : nearest 1 1 = some ⟨pow2 52, 1022⟩ := by decide +kernel

example : ofDecimal 1 (-324) = some zero := by decide +kernel

end Magnitude
end Sigil.Decimal
