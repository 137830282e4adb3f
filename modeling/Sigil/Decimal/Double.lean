import Sigil.Decimal.Shortest

/-!
# Machine numbers

A `Float` taken apart into sign and magnitude and put together again, so that what floating-point
arithmetic rounds or leaves to the machine is exact arithmetic here: reading and writing decimals,
comparison with whole numbers, remainders and rounding to places.
-/

namespace Sigil.Decimal

namespace Magnitude

def bits (x : Magnitude) : Nat :=
  if x.m < pow2 52 then x.m else (x.e + 1) * pow2 52 + (x.m - pow2 52)

def ofBits (bits : Nat) : Magnitude :=
  let e := bits / pow2 52
  let m := bits % pow2 52
  if e = 0 then ⟨m, 0⟩ else ⟨pow2 52 + m, e - 1⟩

example : ofBits (⟨pow2 52, 1022⟩ : Magnitude).bits = ⟨pow2 52, 1022⟩ := by decide +kernel

end Magnitude

namespace Double

def signBit : Nat := pow2 63

def isNegative (x : Float) : Bool := signBit ≤ x.toBits.toNat

/-- The magnitude of a finite number. -/
def magnitude (x : Float) : Magnitude := .ofBits (x.toBits.toNat % signBit)

def infinity : Float := 1.0 / 0.0

/-- The number with a sign and a magnitude; infinite if there is none. -/
def ofMagnitude (negative : Bool) (m : Option Magnitude) : Float :=
  let x := match m with
    | some m => Float.ofBits (UInt64.ofNat m.bits)
    | none => infinity
  if negative then -x else x

def ofQuotient (negative : Bool) (num den : Nat) : Float :=
  ofMagnitude negative (Magnitude.nearest num den)

def ofInt (n : Int) : Float := ofQuotient (n < 0) n.natAbs 1

/-- An exponent beyond which a decimal is infinite, and below which it is zero. -/
def greatestExponent : Int := 400

/-- The number nearest to `digits * 10^exponent`. -/
def ofDecimal (negative : Bool) (digits : Nat) (exponent : Int) : Float :=
  let top := exponent + digitCountOf digits
  if digits = 0 ∨ top < -greatestExponent then ofMagnitude negative (some .zero)
  else if greatestExponent < top then ofMagnitude negative none
  else
    match exponent with
    | .ofNat k => ofQuotient negative (digits * pow10 k) 1
    | .negSucc k => ofQuotient negative digits (pow10 (k + 1))
where
  /-- The number of decimal digits. -/
  digitCountOf (n : Nat) : Int := (Nat.toDigits 10 n).length

/-! ## Decimals as text -/

def takeDigits (s : List Char) : List Char × List Char :=
  (s.takeWhile Char.isDigit, s.dropWhile Char.isDigit)

/-- The exponent that is all of a text; no text is no exponent. -/
def exponent? (s : List Char) : Option Int :=
  let whole (sign : Int) (ds : List Char) : Option Int :=
    if ds.isEmpty || !ds.all Char.isDigit then none else some (sign * ofDigits ds)
  match s with
  | [] => some 0
  | c :: r =>
    if c ≠ 'e' && c ≠ 'E' then none
    else
      match r with
      | '-' :: ds => whole (-1) ds
      | '+' :: ds => whole 1 ds
      | ds => whole 1 ds

/-- The number that a text without sign spells: digits with maybe a point among them or at an end,
and maybe an exponent. -/
def readUnsigned (negative : Bool) (s : List Char) : Option Float := do
  let word := s.map Char.toLower
  if word = "inf".toList ∨ word = "infinity".toList then return ofMagnitude negative none
  if word = "nan".toList then return 0.0 / 0.0
  let (whole, r) := takeDigits s
  let (places, r) :=
    match r with
    | '.' :: r => takeDigits r
    | r => ([], r)
  if whole.isEmpty && places.isEmpty then none
  return ofDecimal negative (ofDigits (whole ++ places)) ((← exponent? r) - places.length)

def read? : List Char → Option Float
  | '-' :: r => readUnsigned true r
  | '+' :: r => readUnsigned false r
  | s => readUnsigned false s

def text (l : Layout) (x : Float) : String :=
  if x.isNaN then "NaN"
  else
    let sign := if isNegative x then "-" else ""
    if x.isInf then sign ++ "inf"
    else
      let m := magnitude x
      sign ++ if m.isZero then "0.0" else String.ofList (l.text m.shortest)

/-- The digits of a quotient in front of the point and some places behind it, a half rounded to the
even neighbour. -/
def fixedDigits (num den places : Nat) : List Char × List Char :=
  let n := Magnitude.roundHalfEven (num * pow10 places) den
  let ds := Nat.toDigits 10 n
  let ds := List.replicate (places + 1 - ds.length) '0' ++ ds
  (ds.take (ds.length - places), ds.drop (ds.length - places))

/-! ## Comparison -/

/-- The place of a number in the order of all numbers: zeros by sign, what is no number at the ends.
-/
def orderKey (x : Float) : Int :=
  let n := x.toBits.toNat
  if isNegative x then -(n - signBit : Int) - 1 else n

/-- The order of a whole number and a number that is finite, by value. -/
def compareFinite (n : Int) (x : Float) : Ordering :=
  let units : Int := (magnitude x).units
  compare (n * pow2 Magnitude.oneExp) (if isNegative x then -units else units)

def isFinite (x : Float) : Bool := !x.isNaN && !x.isInf

def compareInt (n : Int) (x : Float) : Ordering :=
  if isFinite x then
    match compareFinite n x with
    | .eq => if isNegative x && n = 0 then .gt else .eq
    | o => o
  else if isNegative x then .gt else .lt

def equalsInt (n : Int) (x : Float) : Bool := isFinite x && compareFinite n x == .eq

/-! ## Whole parts -/

/-- The whole part of a finite number. -/
def truncate (x : Float) : Int :=
  let n : Int := (magnitude x).units / pow2 Magnitude.oneExp
  if isNegative x then -n else n

/-- The whole part, as near to it as some bounds allow; zero for what is no number. -/
def clamp (low high : Int) (x : Float) : Int :=
  if x.isNaN then 0
  else if x.isInf then (if isNegative x then low else high)
  else max low (min high (truncate x))

/-- The remainder of a division that rounds towards zero. -/
def remainder (x y : Float) : Float :=
  if x.isNaN || y.isNaN || x.isInf || y == 0.0 then 0.0 / 0.0
  else if y.isInf then x
  else
    ofMagnitude (isNegative x) (Magnitude.ofUnits ((magnitude x).units % (magnitude y).units) 1)

/-- The quotient of a division whose remainder is not negative. -/
def quotient (x y : Float) : Float :=
  let q := x / y
  let q := if isNegative q then q.ceil else q.floor
  if remainder x y < 0.0 then (if 0.0 < y then q - 1.0 else q + 1.0) else q

/-- A number times a power with a whole exponent, by repeated squaring. -/
def timesPow (r x : Float) (n : Nat) : Float :=
  if n = 0 then r else timesPow (if n % 2 = 1 then r * x else r) (x * x) (n / 2)
termination_by n

def powInt (x : Float) (n : Int) : Float :=
  if n < 0 then 1.0 / timesPow 1.0 x n.natAbs else timesPow 1.0 x n.natAbs

end Double
end Sigil.Decimal
