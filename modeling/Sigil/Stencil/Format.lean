import Sigil.Stencil.Arguments

/-!
# Formats

A format is a text with directives, each of which stands for a value: a percent sign, maybe the name
of a value between brackets, flags, a width, a precision, and a letter for the form. `format` fills
values in; there must be as many as the directives ask for.
-/

namespace Sigil.Stencil.Format

open Decimal

structure Directive where
  /-- The name of the value, if it is not the next one. -/
  name : Option String := none
  left : Bool := false
  plus : Bool := false
  space : Bool := false
  zero : Bool := false
  /-- Whether a form is written with its mark. -/
  marked : Bool := false
  width : Nat := 0
  precision : Option Nat := none
  deriving Repr, Inhabited

/-- Characters filled up to the width of a directive; `sign` stays in front of zeros. -/
def Directive.pad (d : Directive) (zeros : Bool) (sign body : List Char) : List Char :=
  let missing := d.width - (sign.length + body.length)
  if d.left then sign ++ body ++ List.replicate missing ' '
  else if zeros && d.zero then sign ++ List.replicate missing '0' ++ body
  else List.replicate missing ' ' ++ sign ++ body

def Directive.sign (d : Directive) (negative : Bool) : List Char :=
  if negative then ['-'] else if d.plus then ['+'] else if d.space then [' '] else []

/-- A whole number in some base, with at least as many digits as the precision. -/
def Directive.whole (d : Directive) (base : Nat) (mark : List Char) (upper : Bool) (n : Int) :
    List Char :=
  let ds := Nat.toDigits base n.natAbs
  let ds := if upper then ds.map Char.toUpper else ds
  let ds := List.replicate (d.precision.getD 1 - ds.length) '0' ++ ds
  d.pad true (d.sign (n < 0) ++ if d.marked then mark else []) ds

/-! ## Numbers with a fraction -/

/-- The digits of a positive number with one in front of the point and some places, and the exponent
of ten that goes with them. -/
def leadingDigits (x : Magnitude) (places : Nat) : List Char × Int :=
  if x.isZero then (List.replicate (places + 1) '0', 0)
  else
    let top := x.leading
    let shift := (places : Int) - top
    let n :=
      match shift with
      | .ofNat k => Magnitude.roundHalfEven (x.units * pow10 k) (pow2 Magnitude.oneExp)
      | .negSucc k => Magnitude.roundHalfEven x.units (pow2 Magnitude.oneExp * pow10 (k + 1))
    let ds := Nat.toDigits 10 n
    if places + 1 < ds.length then (ds.dropLast, top + 1) else (ds, top)

def pointed (marked : Bool) (whole places : List Char) : List Char :=
  whole ++ if places.isEmpty && !marked then [] else '.' :: places

def fixedForm (marked : Bool) (x : Magnitude) (places : Nat) : List Char :=
  let (whole, places) := Double.fixedDigits x.units (pow2 Magnitude.oneExp) places
  pointed marked whole places

/-- An exponent with a sign and at least two digits. -/
def exponentText (n : Int) : List Char :=
  let ds := Nat.toDigits 10 n.natAbs
  'e' :: (if n < 0 then '-' else '+') :: (List.replicate (2 - ds.length) '0' ++ ds)

def scientificForm (marked : Bool) (x : Magnitude) (places : Nat) : List Char :=
  let (ds, top) := leadingDigits x places
  pointed marked (ds.take 1) (ds.drop 1) ++ exponentText top

def dropZeros (s : List Char) : List Char :=
  if s.contains '.' then
    let t := (s.reverse.dropWhile (· == '0')).reverse
    if t.getLast? = some '.' then t.dropLast else t
  else s

def generalForm (marked : Bool) (x : Magnitude) (digits : Nat) : List Char :=
  let digits := max digits 1
  let (ds, top) := leadingDigits x (digits - 1)
  let tidy (s : List Char) : List Char := if marked then s else dropZeros s
  if -4 ≤ top ∧ top < digits then tidy (fixedForm marked x (digits - 1 - top).toNat)
  else tidy (pointed marked (ds.take 1) (ds.drop 1)) ++ exponentText top

def Directive.fraction (d : Directive) (form : Char) (x : Float) : List Char :=
  let sign := d.sign (Double.isNegative x && !x.isNaN)
  let upper (s : List Char) : List Char := if form.isUpper then s.map Char.toUpper else s
  if x.isNaN then d.pad false sign (upper "nan".toList)
  else if x.isInf then d.pad false sign (upper "inf".toList)
  else
    let m := Double.magnitude x
    let places := d.precision.getD 6
    d.pad true sign <| upper <|
      match form.toLower with
      | 'f' => fixedForm d.marked m places
      | 'e' => scientificForm d.marked m places
      | _ => generalForm d.marked m places

/-! ## Values -/

/-- The whole number that a value is written as. -/
def wholeOf : Value → Result Int
  | .float x => if Double.isFinite x then .ok (Double.truncate x) else .error .badArguments
  | v => v.int?.elim (.error .badArguments) .ok

def characterOf (v : Value) : Result (List Char) :=
  match v with
  | .str s _ => if s.length = 1 then .ok s.toList else .error .badArguments
  | v =>
    match v.int? with
    | some (.ofNat n) => if n.isValidChar then .ok [Char.ofNat n] else .error .badArguments
    | _ => .error .badArguments

def Directive.fill (d : Directive) (form : Char) (v : Value) : Result (List Char) :=
  let cut (s : List Char) : List Char := d.precision.elim s s.take
  match form with
  | 'd' | 'i' | 'u' => do return d.whole 10 [] false (← wholeOf v)
  | 'o' | 'x' | 'X' =>
    match v.int? with
    | some n =>
      .ok <| if form = 'o' then d.whole 8 ['0', 'o'] false n
        else if form = 'x' then d.whole 16 ['0', 'x'] false n
        else d.whole 16 ['0', 'X'] true n
    | none => .error .badArguments
  | 'e' | 'E' | 'f' | 'F' | 'g' | 'G' =>
    v.float?.elim (.error .badArguments) fun x => .ok (d.fraction form x)
  | 'c' => do return d.pad false [] (← characterOf v)
  | 's' => .ok (d.pad false [] (cut v.text.toList))
  | 'r' | 'a' => .ok (d.pad false [] (cut v.innerText.toList))
  | _ => .error .badArguments

/-! ## Directives -/

def readFlags : Directive → List Char → Directive × List Char
  | d, '-' :: r => readFlags { d with left := true } r
  | d, '+' :: r => readFlags { d with plus := true } r
  | d, ' ' :: r => readFlags { d with space := true } r
  | d, '0' :: r => readFlags { d with zero := true } r
  | d, '#' :: r => readFlags { d with marked := true } r
  | d, s => (d, s)

def readName (s : List Char) : Option String × List Char :=
  match s with
  | '(' :: r => (some (String.ofList (r.takeWhile (· ≠ ')'))), (r.dropWhile (· ≠ ')')).drop 1)
  | s => (none, s)

/-- A number in a directive: digits, or a star for the next value. -/
def readNumber (s : List Char) (args : List Value) : Result (Option Int × List Char × List Value) :=
  match s, args with
  | '*' :: r, v :: args => do return (some (← v.intArgument 64), r, args)
  | '*' :: _, [] => .error .badArguments
  | s, args =>
    let (ds, r) := Double.takeDigits s
    .ok (if ds.isEmpty then none else some (ofDigits ds), r, args)

/-- A directive behind its percent sign, its letter, what follows it, and the values that are left.
-/
def readDirective (s : List Char) (args : List Value) :
    Result (Directive × Char × List Char × List Value) := do
  let (name, s) := readName s
  let (d, s) := readFlags { name := name } s
  let (width, s, args) ← readNumber s args
  let w := width.getD 0
  let d := { d with width := w.natAbs, left := d.left || w < 0 }
  let (d, s, args) ←
    match s with
    | '.' :: r => do
      let (precision, r, args) ← readNumber r args
      pure ({ d with precision := some (precision.getD 0).toNat }, r, args)
    | s => pure (d, s, args)
  match s.dropWhile fun c => c == 'h' || c == 'l' || c == 'L' with
  | form :: r => return (d, form, r, args)
  | [] => throw .badArguments

/-- A format with values filled in. Every directive takes a character, so there are at most as many
steps as characters. -/
def fillAll (names : List (Value × Value)) :
    (fuel : Nat) → List Char → List Value → Result (List Char)
  | 0, _, _ => .error .badArguments
  | fuel + 1, s, args =>
    let (text, r) := (s.takeWhile (· ≠ '%'), s.dropWhile (· ≠ '%'))
    match r with
    | [] => if args.isEmpty then .ok text else .error .badArguments
    | _ :: r => do
      let (d, form, r, args) ← readDirective r args
      let (filled, args) ←
        if form = '%' then pure (d.pad false [] ['%'], args)
        else
          match d.name, args with
          | some name, args =>
            match Value.memberNamed name names with
            | some v => pure (← d.fill form v, args)
            | none => throw .badArguments
          | none, v :: args => pure (← d.fill form v, args)
          | none, [] => throw .badArguments
      return text ++ filled ++ (← fillAll names fuel r args)

def format (s : String) (args : List Value) (names : List (Value × Value)) : Result String :=
  (fillAll names (s.length + 1) s.toList args).map String.ofList

end Sigil.Stencil.Format
