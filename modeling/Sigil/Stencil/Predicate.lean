import Sigil.Stencil.Arguments
import Sigil.Stencil.Operation
import Sigil.Text.LetterCase

/-!
# Tests

What an expression can test a value for. A test that has no name here is an error when it is used.
-/

namespace Sigil.Stencil

open Text Decimal

/-- A test of a value that takes further arguments. -/
abbrev Predicate := Value → Taker Bool

namespace Predicate

def simple (f : Value → Bool) : Predicate := fun x => return f x

def comparison (op : Comparison) : Predicate := fun x => do op.holds x (← Taker.any)

/-- Whether a whole number leaves a remainder when it is divided by two. -/
def hasParity (odd : Bool) (x : Value) : Bool :=
  x.integral?.any fun n => (n % 2 ≠ 0) == odd

def isMultiple (x y : Value) : Bool :=
  match x, y with
  | .float a, _ => y.float?.any fun b => Double.remainder a b == 0.0
  | _, .float b => x.float?.any fun a => Double.remainder a b == 0.0
  | _, _ =>
    match x.int?, y.int? with
    | some a, some b => b ≠ 0 && Int.tmod a b == 0
    | _, _ => false

/-- Whether a comparison of the texts of two values holds. -/
def texts (f : List Char → List Char → Bool) : Predicate := fun x => do
  let s ← x.argumentText
  let t ← Taker.required Value.argumentText
  return f s.toList t.toList

def characters (p : Char → Bool) : Predicate := fun x => return (← x.stringArgument).toList.all p

def isWhole : Value → Bool
  | .int _ => true
  | _ => false

/-- Whether two values are one and the same. Lists and dictionaries that come from different places
never are. -/
def isIdentical (x y : Value) : Bool :=
  match x, y with
  | .object r id _, .object r' id' _ => r == r' && id == id'
  | .func f, .func g => f == g
  | x, y => x.items?.isNone && x.rank == y.rank && isWhole x == isWhole y && x.same y

/-- The tests that look at nothing but values. -/
def plain : List (String × Predicate) := [
  ("defined", simple fun x => x.rank ≠ 0),
  ("undefined", simple fun x => x.rank == 0),
  ("none", simple fun x => x.rank == 1),
  ("boolean", simple fun x => x.rank == 2),
  ("number", simple Value.isNumber),
  ("integer", simple isWhole),
  ("int", simple isWhole),
  ("float", simple fun x => x.isNumber && !isWhole x),
  ("string", simple fun x => x.rank == 4),
  ("sequence", simple fun x => x.rank == 5),
  ("mapping", simple fun x => x.rank == 6),
  ("iterable", simple fun x => x.iterate.isOk),
  ("safe", simple fun x => match x with | .str _ safe => safe | _ => false),
  ("escaped", simple fun x => match x with | .str _ safe => safe | _ => false),
  ("true", simple fun x => x.rank == 2 && x.isTrue),
  ("false", simple fun x => x.rank == 2 && !x.isTrue),
  ("odd", simple (hasParity true)),
  ("even", simple (hasParity false)),
  ("divisibleby", fun x => return isMultiple x (← Taker.any)),
  ("startingwith", texts startsWith),
  ("endingwith", texts endsWith),
  ("lower", characters isLowercase),
  ("upper", characters isUppercase),
  ("sameas", fun x => return isIdentical x (← Taker.any)),
  ("eq", comparison .eq),
  ("equalto", comparison .eq),
  ("==", comparison .eq),
  ("ne", comparison .ne),
  ("!=", comparison .ne),
  ("lt", comparison .lt),
  ("lessthan", comparison .lt),
  ("<", comparison .lt),
  ("le", comparison .le),
  ("<=", comparison .le),
  ("gt", comparison .gt),
  ("greaterthan", comparison .gt),
  (">", comparison .gt),
  ("ge", comparison .ge),
  (">=", comparison .ge),
  ("in", fun x => return (within x (← Taker.any)).toOption.getD false)]

/-- The tests for what names mean. -/
def aboutNames : List String := ["filter", "test"]

def isKnown (name : String) : Bool := (plain.lookup name).isSome || aboutNames.contains name

end Predicate

end Sigil.Stencil
