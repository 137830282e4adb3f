import Sigil.Stencil.Tree
import Sigil.Stencil.Value
import Sigil.Text.Pieces

/-!
# Operators, members and slices

What operators compute from values. Whole numbers that are computed have 128 bits with a sign;
written ones may have one bit more.
-/

namespace Sigil.Stencil

open Text Decimal

/-! ## Numbers -/

/-- The bound of computed whole numbers. -/
def bound127 : Int := pow2 127

/-- A whole number, if it may be computed. -/
def inRange (n : Int) : Result Value :=
  if -bound127 ≤ n ∧ n < bound127 then .ok (.int n) else .error .outOfRange

/-- The whole number that an operator computes with. -/
def operand? (v : Value) : Option Int := do
  let n ← v.int?
  if n < bound127 then some n else none

/-- An operation on two numbers: on whole numbers unless one of them has a fraction. -/
def arithmetic (whole : Int → Int → Result Value) (other : Float → Float → Float) (x y : Value) :
    Result Value :=
  match x, y with
  | .float _, _ | _, .float _ =>
    match x.float?, y.float? with
    | some a, some b => .ok (.float (other a b))
    | _, _ => .error .badOperands
  | _, _ =>
    match operand? x, operand? y with
    | some a, some b => whole a b
    | _, _ => .error .badOperands

/-- A whole division, which leaves a remainder that is not negative. -/
def divided (op : Int → Int → Int) (a b : Int) : Result Value :=
  if b = 0 then .error .badOperands else inRange (op a b)

/-- The bound of the exponents of whole powers. -/
def exponentBound : Int := pow2 32

def power (a b : Int) : Result Value :=
  if b < 0 ∨ exponentBound ≤ b then .error .outOfRange
  else if a.natAbs ≤ 1 then .ok (.int (if b = 0 then 1 else if b % 2 = 0 then a.natAbs else a))
  else if 128 ≤ b then .error .outOfRange
  else inRange (Int.pow a b.toNat)

def negated : Value → Result Value
  | .int n => if n = bound127 then .ok (.int n) else if bound127 < n then .error .outOfRange
    else inRange (-n)
  | .float x => .ok (.float (-x))
  | _ => .error .badOperands

/-! ## Operators -/

/-- A text written several times. -/
def repeated (s : String) (n : Value) : Result Value :=
  n.count?.elim (.error .badOperands) fun k => .ok (.ofText (String.join (List.replicate k s)))

/-- A list's items several times; their number must be known. -/
def repeatedItems (x n : Value) : Result Value :=
  match n.count?, x.length?, x.items? with
  | some k, some _, some xs => .ok (.ofLazy (List.replicate k xs).flatten)
  | _, _, _ => .error .badOperands

def within (x container : Value) : Result Bool :=
  match container with
  | .undefined => .ok false
  | .str s _ => .ok (contains x.text.toList s.toList)
  | .func _ => .ok false
  | v =>
    match v.members?, v.items? with
    | some ms, _ => .ok (Value.get? x ms).isSome
    | none, some xs => .ok (xs.any fun y => y.same x)
    | none, none => .error .badOperands

/-- The sum of two values: of numbers, texts or lists. -/
def sum (x y : Value) : Result Value :=
  match x.text?, y.text? with
  | some s, some t => .ok (.ofText (s ++ t))
  | _, _ =>
    if x.isListLike && y.isListLike then
      .ok (.list (x.items?.getD [] ++ y.items?.getD [])
        (if x.isStream || y.isStream then .stream else .lazy))
    else arithmetic (fun a b => inRange (a + b)) (· + ·) x y

/-- The product of two values; one of them may be a text or a list. -/
def product (x y : Value) : Result Value :=
  match x.text?, y.text? with
  | some s, none => repeated s y
  | none, some s => repeated s x
  | _, _ =>
    if x.isListLike then repeatedItems x y
    else if y.isListLike then repeatedItems y x
    else arithmetic (fun a b => inRange (a * b)) (· * ·) x y

def BinaryOp.apply (op : BinaryOp) (x y : Value) : Result Value :=
  match op with
  | .concat => .ok (.ofText (x.text ++ y.text))
  | .add => sum x y
  | .sub => arithmetic (fun a b => inRange (a - b)) (· - ·) x y
  | .mul => product x y
  | .div =>
    match x.float?, y.float? with
    | some a, some b => .ok (.float (a / b))
    | _, _ => .error .badOperands
  | .floorDiv => arithmetic (divided Int.ediv) Double.quotient x y
  | .mod => arithmetic (divided Int.emod) Double.remainder x y
  | .pow => arithmetic power Float.pow x y

def Comparison.holds (op : Comparison) (x y : Value) : Result Bool :=
  match op with
  | .eq => .ok (x.same y)
  | .ne => .ok (!x.same y)
  | .lt => .ok (x.order y == .lt)
  | .le => .ok (x.order y != .gt)
  | .gt => .ok (x.order y == .gt)
  | .ge => .ok (x.order y != .lt)
  | .contained => within x y
  | .notContained => (within x y).map not

/-! ## Members and items -/

/-- An item of a list, counted from the end if the number is negative. -/
def item? {α : Type} (xs : List α) (n : Int) : Option α :=
  let k := if n < 0 then n + xs.length else n
  if k < 0 then none else xs[k.toNat]?

def lookup? (x key : Value) : Option Value :=
  match x with
  | .str s _ => do item? (Value.characters s) (← key.place?)
  | .group k xs =>
    if key.text? = some "grouper" then some k
    else if key.text? = some "list" then some (.ofLazy xs)
    else do item? [k, .ofLazy xs] (← key.place?)
  | .list xs kind => do
    let n ← key.place?
    if kind = .stream ∧ n < 0 then none else item? xs n
  | x => x.members?.bind (Value.get? key)

/-- What a value has under a key; undefined if it has nothing there. -/
def index (x key : Value) : Result Value :=
  match x with
  | .undefined => .error (.memberOfUndefined key.text)
  | x => .ok ((lookup? x key).getD .undefined)

/-- The member of a value. A text has none. -/
def member (x : Value) (name : String) : Result Value :=
  match x with
  | .str .. => .ok .undefined
  | x => index x (.ofText name)

/-- What lies behind a path of names and numbers between dots. -/
def followPath (x : Value) (path : String) : Result Value :=
  (fields '.' path.toList).foldlM (fun x part =>
    match natural? part with
    | some n => index x (.int n)
    | none => member x (String.ofList part)) x

/-- What lies behind a path; another value if there is nothing. -/
def followPathOr (x : Value) (path : String) (other : Value) : Value :=
  match followPath x path with
  | .ok .undefined => other
  | .ok v => v
  | .error _ => other

/-! ## Slices -/

/-- A place in a slice: none, or a whole number. -/
def slicePlace : Value → Result (Option Int)
  | .null => .ok none
  | v => v.place?.elim (.error .badOperands) fun n => .ok (some n)

/-- The items from one place to another one, with a step forwards. Places are counted from the end
by the number of items that is known beforehand. -/
def sliceForwards {α : Type} (known : Nat) (xs : List α) (start : Int) (stop : Option Int)
    (step : Nat) : List α :=
  let start := if start < 0 then start + known else start
  let part :=
    match stop with
    | none => xs.take known
    | some n =>
      if 0 ≤ n then xs.take n.toNat else if 0 ≤ n + known then xs.take (n + known).toNat else xs
  if start < 0 then []
  else
    let part := part.drop start.toNat
    ((List.range part.length).filter (· % step == 0)).filterMap (part[·]?)

/-- The items from one place back to another one. A slice that ends in front of the first item goes
on to the first item. -/
def sliceBackwards {α : Type} (xs : List α) (start stop : Option Int) (step : Nat) : List α :=
  let last : Int := (xs.length : Int) - 1
  let start : Int :=
    match start with
    | none | some 0 => last
    | some n => if n < 0 then max (n + xs.length) 0 else min n last
  let stop : Int :=
    match stop with
    | none => 0
    | some n => if n < 0 then max (n + xs.length) 0 else n
  let count := if stop = 0 then (start + step) / step else (start - stop + step - 1) / step
  if start < stop then []
  else
    (List.range count.toNat).filterMap fun (k : Nat) =>
      let n := start - step * k
      if n < stop then none else xs[n.toNat]?

def slicedItems {α : Type} (known : Nat) (xs : List α) (start stop : Option Int) (step : Int) :
    List α :=
  if 0 < step then sliceForwards known xs (start.getD 0) stop step.toNat
  else sliceBackwards xs start stop step.natAbs

/-- The part of a text or list between two places, in some steps. -/
def slice (x start stop step : Value) : Result Value := do
  let start ← slicePlace start
  let stop ← slicePlace stop
  let step := (← slicePlace step).getD 1
  if step = 0 then throw .badOperands
  match x with
  | .str s _ => return .ofChars (slicedItems s.length s.toList start stop step)
  | .undefined | .null => return .ofList []
  | x =>
    if x.isListLike then
      let items := slicedItems (x.length?.getD 0) (x.items?.getD []) start stop step
      return .list items (if x.isStream && 0 < step && !items.isEmpty then .stream else .lazy)
    else throw .badOperands

end Sigil.Stencil
