import Sigil.Decimal.Binary64

/-!
# The shortest decimal of a magnitude

`shortest` finds the fewest decimal digits that read back as a magnitude: on the grids with 1, 2, …,
17 digits it tries the two neighbours of the value and takes the first that rounds to it, the nearer
one if both do and the even one if both are equally near. `Layout.text` writes digits and an
exponent in positional or scientific form.
-/

namespace Sigil.Decimal

/-- A decimal `digits * 10^exponent`. -/
structure Scaled where
  digits : Nat
  exponent : Int
  deriving DecidableEq, Repr

namespace Magnitude

/-- Four times the value and the ends of the interval that rounds to it, as fractions over one
denominator, in units that make `10^p` a whole number. -/
structure Grid where
  value : Nat
  low : Nat
  high : Nat
  /-- Four times ten to the power of the grid. -/
  step : Nat
  /-- Whether the ends belong to the interval. -/
  closed : Bool

/-- The grid of multiples of `10^p` around a magnitude. -/
def grid (x : Magnitude) (p : Int) : Grid :=
  let below := if x.m = pow2 (precision - 1) ∧ 0 < x.e then 1 else 2
  let unit := pow2 x.e
  let (scale, step) :=
    match p with
    | .ofNat k => (1, 4 * pow2 oneExp * pow10 k)
    | .negSucc k => (pow10 (k + 1), 4 * pow2 oneExp)
  { value := 4 * x.m * unit * scale
    low := (4 * x.m - below) * unit * scale
    high := (4 * x.m + 2) * unit * scale
    step := step
    closed := x.m % 2 == 0 }

/-- Whether `d` steps lie in the interval. -/
def Grid.holds (g : Grid) (d : Nat) : Bool :=
  let v := d * g.step
  if g.closed then g.low ≤ v && v ≤ g.high else g.low < v && v < g.high

/-- The neighbour of the value on the grid that rounds to it, if one does. -/
def Grid.pick (g : Grid) : Option Nat :=
  let d := g.value / g.step
  let down := g.value % g.step
  let up := g.step - down
  match g.holds d && 0 < d, g.holds (d + 1) with
  | true, true =>
    if down < up then some d
    else if up < down then some (d + 1)
    else if d % 2 = 0 then some d else some (d + 1)
  | true, false => some d
  | false, true => some (d + 1)
  | false, false => none

def digitCount (n : Nat) : Int := (Nat.toDigits 10 n).length

/-- The decimal exponent of the leading digit: the greatest `k` with `10^k` at most the value. -/
def leading (x : Magnitude) : Int :=
  let whole := x.units / pow2 oneExp
  if 0 < whole then digitCount whole - 1
  else -digitCount ((pow2 oneExp + x.units - 1) / x.units - 1)

/-- The first grid from the one with `n` digits on that has a decimal reading back as the value. -/
def search (x : Magnitude) (top : Int) : (tries n : Nat) → Scaled
  | 0, _ => ⟨0, 0⟩
  | k + 1, n =>
    let p := top - (n : Int) + 1
    match (x.grid p).pick with
    | some d => ⟨d, p⟩
    | none => search x top k (n + 1)

/-- The shortest decimal that reads back as the magnitude. -/
def shortest (x : Magnitude) : Scaled :=
  if x.isZero then ⟨0, 0⟩ else x.search x.leading 17 1

end Magnitude

/-- Trailing zeros of the digits moved to the exponent. -/
def Scaled.normalized (d : Scaled) : Scaled :=
  let cs := Nat.toDigits 10 d.digits
  let zeros := (cs.reverse.takeWhile (· == '0')).length
  if d.digits = 0 then ⟨0, 0⟩ else ⟨d.digits / pow10 zeros, d.exponent + zeros⟩

/-- How a decimal is written: the exponents of the leading digit for which all digits are written
out, and the sign of a positive exponent otherwise. -/
structure Layout where
  leastPositional : Int
  greatestPositional : Int
  plus : String

namespace Layout

/-- All digits written out, with at least one place after the point. -/
def positional (digits : List Char) (top : Int) : List Char :=
  match top with
  | .ofNat k =>
    let whole := (digits ++ List.replicate (k + 1 - digits.length) '0').take (k + 1)
    let places := digits.drop (k + 1)
    whole ++ ['.'] ++ if places.isEmpty then ['0'] else places
  | .negSucc k => ['0', '.'] ++ List.replicate k '0' ++ digits

/-- One digit before the point, the others after it, and the exponent. -/
def scientific (plus : String) (digits : List Char) (top : Int) : List Char :=
  let places := digits.drop 1
  digits.take 1 ++ (if places.isEmpty then [] else '.' :: places) ++ ['e'] ++
    match top with
    | .ofNat k => plus.toList ++ Nat.toDigits 10 k
    | .negSucc k => '-' :: Nat.toDigits 10 (k + 1)

def text (l : Layout) (d : Scaled) : List Char :=
  let d := d.normalized
  let digits := Nat.toDigits 10 d.digits
  let top := d.exponent + digits.length - 1
  if l.leastPositional ≤ top ∧ top ≤ l.greatestPositional then positional digits top
  else scientific l.plus digits top

end Layout
end Sigil.Decimal
