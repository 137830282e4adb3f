import Sigil.Decimal.Double
import Sigil.Stencil.Fault
import Sigil.Text.Quoted

/-!
# Values of a stencil

What expressions of a stencil evaluate to, the text that an output writes for a value, and the order
of values. Inside of lists and dictionaries strings are quoted. Some values stand for an object that
changes while the stencil is written; such a value carries what the object held when it was last
looked at.
-/

namespace Sigil.Stencil

open Decimal

/-- What a value that stands for an object refers to. -/
inductive Reference where
  /-- Names with values that may be set. -/
  | space
  | loop
  | routine
  deriving DecidableEq, Repr, Inhabited

inductive Builtin where
  | range
  | dict
  | space
  | debug
  deriving DecidableEq, Repr

/-- How a list is held. -/
inductive ListKind where
  | whole
  /-- The items come from an operation that goes through other lists. -/
  | lazy
  /-- The same, and their number is not known before they have all come. -/
  | stream
  deriving DecidableEq, Repr

inductive Value where
  | undefined
  | null
  | bool (b : Bool)
  | int (n : Int)
  | float (x : Float)
  /-- A text; a safe one is not escaped again. -/
  | str (s : String) (safe : Bool)
  | list (items : List Value) (kind : ListKind)
  /-- A dictionary, with its members in the order in which their keys came; `named` if it holds the
  named arguments of a call. -/
  | dict (members : List (Value × Value)) (named : Bool)
  /-- The items that have one key in common. -/
  | group (key : Value) (items : List Value)
  | func (f : Builtin)
  | object (r : Reference) (id : Nat) (members : List (Value × Value))
  deriving Repr, Inhabited

namespace Value

def ofText (s : String) : Value := str s false

def ofChars (cs : List Char) : Value := ofText (String.ofList cs)

def ofList (xs : List Value) : Value := list xs .whole

/-- A list whose items come from an operation that goes through other lists. -/
def ofLazy (xs : List Value) : Value := list xs .lazy

def text? : Value → Option String
  | str s _ => some s
  | _ => none

def isNumber : Value → Bool
  | int _ => true
  | float _ => true
  | _ => false

/-! ## Kinds and contents -/

/-- The place of a value's kind among the kinds. -/
def rank : Value → Nat
  | undefined => 0
  | null => 1
  | bool _ => 2
  | int _ => 3
  | float _ => 3
  | str .. => 4
  | list _ .whole => 5
  | group .. => 5
  | dict .. => 6
  | object .. => 6
  | list .. => 7
  | func _ => 8

def isListLike (v : Value) : Bool := v.rank == 5 || v.rank == 7

def members? : Value → Option (List (Value × Value))
  | dict ms _ => some ms
  | object _ _ ms => some ms
  | _ => none

/-- The items of a list, or the keys of a dictionary. -/
def items? : Value → Option (List Value)
  | list xs _ => some xs
  | group key xs => some [key, ofLazy xs]
  | v => v.members?.map fun ms => ms.map (·.1)

def characters (s : String) : List Value := s.toList.map fun c => ofText (String.singleton c)

def iterate (v : Value) : Result (List Value) :=
  match v with
  | undefined => .ok []
  | null => .ok []
  | str s _ => .ok (characters s)
  | v => v.items?.elim (.error .notIterable) .ok

def isStream : Value → Bool
  | list _ .stream => true
  | _ => false

/-- The number of items or characters, if it is known. -/
def length? (v : Value) : Option Nat :=
  match v with
  | str s _ => some s.length
  | list _ .stream => none
  | v => v.items?.map List.length

def isTrue : Value → Bool
  | undefined => false
  | null => false
  | bool b => b
  | int n => n ≠ 0
  | float x => x != 0
  | str s _ => !s.isEmpty
  | list _ .stream => true
  | list xs _ => !xs.isEmpty
  | dict ms _ => !ms.isEmpty
  | group .. => true
  | func _ => true
  | object _ _ ms => !ms.isEmpty

/-! ## Numbers -/

/-- The whole number that a value counts as. -/
def int? : Value → Option Int
  | bool b => some (if b then 1 else 0)
  | int n => some n
  | _ => none

def float? : Value → Option Float
  | float x => some x
  | v => v.int?.map Double.ofInt

/-- The bound of signed numbers of 64 bits. -/
def bound63 : Int := pow2 63

/-- The whole number that a value equals; a float must be one of 64 bits. -/
def integral? : Value → Option Int
  | float x =>
    let n := Double.clamp (-bound63) (bound63 - 1) x
    if Double.ofInt n == x then some n else none
  | v => v.int?

/-- The whole number between two bounds that a value equals. -/
def integralIn? (low high : Int) (v : Value) : Option Int := do
  let n ← v.integral?
  if low ≤ n ∧ n ≤ high then some n else none

def count? (v : Value) : Option Nat := (v.integralIn? 0 (bound64 - 1)).map Int.toNat

def place? (v : Value) : Option Int := v.integralIn? (-bound63) (bound63 - 1)

/-! ## Objects -/

mutual

/-- A value with the members of all objects in it looked up. -/
def withMembers (f : Reference → Nat → List (Value × Value)) : Value → Value
  | list xs kind => list (withMembersAll f xs) kind
  | dict ms named => dict (withMembersIn f ms) named
  | group key xs => group (withMembers f key) (withMembersAll f xs)
  | object r id _ => object r id (f r id)
  | v => v

def withMembersAll (f : Reference → Nat → List (Value × Value)) : List Value → List Value
  | [] => []
  | x :: xs => withMembers f x :: withMembersAll f xs

def withMembersIn (f : Reference → Nat → List (Value × Value)) :
    List (Value × Value) → List (Value × Value)
  | [] => []
  | (k, v) :: ms => (withMembers f k, withMembers f v) :: withMembersIn f ms

end

/-! ## Text -/

/-- How a number is written on its own: with all digits. -/
def outerLayout : Layout := ⟨-400, 400, ""⟩

/-- How a number is written inside of a list or dictionary. -/
def innerLayout : Layout := ⟨-4, 15, ""⟩

def boolText (b : Bool) : String := if b then "True" else "False"

def builtinName : Builtin → String
  | .range => "range"
  | .dict => "dict"
  | .space => "namespace"
  | .debug => "debug"

/-- The text of a function: the path that it is known by outside of stencils. -/
def builtinText (f : Builtin) : String := "minijinja::functions::builtins::" ++ builtinName f

def memberNamed (name : String) (ms : List (Value × Value)) : Option Value :=
  (ms.find? fun m => m.1.text? == some name).map (·.2)

/-- The text of a number that an object holds. -/
def countNamed (name : String) (ms : List (Value × Value)) : String :=
  match memberNamed name ms with
  | some (int n) => toString n
  | _ => "?"

mutual

/-- A value inside of a list or dictionary. -/
def innerText : Value → String
  | undefined => "undefined"
  | null => "None"
  | bool b => boolText b
  | int n => toString n
  | float x => Double.text innerLayout x
  | str s _ => Text.quote s
  | list xs _ => "[" ++ itemsText xs ++ "]"
  | dict ms _ => "\x7b" ++ membersText ms ++ "\x7d"
  | group key xs => "[" ++ innerText key ++ ", [" ++ itemsText xs ++ "]]"
  | func f => builtinText f
  | object .space _ ms => "\x7b" ++ membersText ms ++ "\x7d"
  | object .loop _ ms => "<loop " ++ countNamed "index0" ms ++ "/" ++ countNamed "length" ms ++ ">"
  | object .routine _ ms => "<macro " ++ ((memberNamed "name" ms).bind text?).getD "" ++ ">"

def itemsText : List Value → String
  | [] => ""
  | [x] => innerText x
  | x :: y :: xs => innerText x ++ ", " ++ itemsText (y :: xs)

def membersText : List (Value × Value) → String
  | [] => ""
  | [(k, v)] => innerText k ++ ": " ++ innerText v
  | (k, v) :: m :: ms => innerText k ++ ": " ++ innerText v ++ ", " ++ membersText (m :: ms)

end

def text : Value → String
  | undefined => ""
  | str s _ => s
  | float x => Double.text outerLayout x
  | v => v.innerText

/-- The indentation of a value that is written over several lines. -/
def margin (depth : Nat) : String := String.ofList (List.replicate (4 * depth) ' ')

mutual

/-- A value written over several lines: every item and member of it has a line of its own. -/
def wideText (depth : Nat) : Value → String
  | list [] _ => "[]"
  | list xs _ => "[\n" ++ wideItems (depth + 1) xs ++ margin depth ++ "]"
  | dict [] _ => "\x7b\x7d"
  | dict ms _ => "\x7b\n" ++ wideMembers (depth + 1) ms ++ margin depth ++ "\x7d"
  | object .space _ (m :: ms) =>
    "\x7b\n" ++ wideMembers (depth + 1) (m :: ms) ++ margin depth ++ "\x7d"
  | group key xs =>
    "[\n" ++ margin (depth + 1) ++ wideText (depth + 1) key ++ ",\n" ++ margin (depth + 1) ++
      "[\n" ++ wideItems (depth + 2) xs ++ margin (depth + 1) ++ "],\n" ++ margin depth ++ "]"
  | v => v.innerText

def wideItems (depth : Nat) : List Value → String
  | [] => ""
  | x :: xs => margin depth ++ wideText depth x ++ ",\n" ++ wideItems depth xs

def wideMembers (depth : Nat) : List (Value × Value) → String
  | [] => ""
  | (k, v) :: ms =>
    margin depth ++ wideText depth k ++ ": " ++ wideText depth v ++ ",\n" ++ wideMembers depth ms

end

/-! ## Order -/

def compareNumbers : Value → Value → Ordering
  | int a, int b => compare a b
  | int a, float y => Double.compareInt a y
  | float x, int b => (Double.compareInt b x).swap
  | float x, float y => compare (Double.orderKey x) (Double.orderKey y)
  | _, _ => .eq

mutual

/-- The order of two values: by kind, and within a kind by value, item by item. -/
def order (x y : Value) : Ordering :=
  (compare x.rank y.rank).then <|
    match x with
    | bool a => compare (some a) (match y with | bool b => some b | _ => none)
    | str s _ => compare (some s) y.text?
    | list xs _ => orderItems xs (y.items?.getD [])
    | group key xs =>
      match y.items?.getD [] with
      | [] => .gt
      | l :: [] => (order key l).then .gt
      | l :: z :: zs =>
        (order key l).then <| ((compare 7 z.rank).then (orderItems xs (z.items?.getD []))).then
          (if zs.isEmpty then .eq else .lt)
    | dict ms _ => orderMembers ms (y.members?.getD [])
    | object _ _ ms => orderMembers ms (y.members?.getD [])
    | func f => compare (builtinText f) y.innerText
    | x => compareNumbers x y

def orderItems : List Value → List Value → Ordering
  | [], [] => .eq
  | [], _ => .lt
  | _, [] => .gt
  | x :: xs, y :: ys => (order x y).then (orderItems xs ys)

def orderMembers : List (Value × Value) → List (Value × Value) → Ordering
  | [], [] => .eq
  | [], _ => .lt
  | _, [] => .gt
  | (k, x) :: ms, (l, y) :: ns => ((order k l).then (order x y)).then (orderMembers ms ns)

end

def sameKey (x y : Value) : Bool := x.order y == .eq

def get? (key : Value) (ms : List (Value × Value)) : Option Value :=
  (ms.find? fun m => m.1.sameKey key).map (·.2)

/-- The members with the value of a key set; a new key comes last. -/
def put (key v : Value) (ms : List (Value × Value)) : List (Value × Value) :=
  if (get? key ms).isSome then ms.map fun m => if m.1.sameKey key then (m.1, v) else m
  else ms ++ [(key, v)]

def putAll (ms news : List (Value × Value)) : List (Value × Value) :=
  news.foldl (fun ms m => put m.1 m.2 ms) ms

/-! ## Equality -/

/-- Whether two numbers or truth values are equal. -/
def sameNumber (x y : Value) : Bool :=
  match x.int?, y.int? with
  | some a, some b => a == b
  | some a, none => match y with | float y => Double.equalsInt a y | _ => false
  | none, some b => match x with | float x => Double.equalsInt b x | _ => false
  | none, none => match x, y with | float x, float y => x == y | _, _ => false

mutual

/-- Whether two values are equal. Truth values count as numbers, lists of all kinds are equal if
their items are, and the order of a dictionary's members does not matter. -/
def same (x y : Value) : Bool :=
  match x with
  | undefined => y.rank == 0
  | null => y.rank == 1
  | str s _ => y.text? == some s
  | list xs _ => y.isListLike && sameItems xs (y.items?.getD [])
  | group key xs =>
    match y.items?.getD [] with
    | [l, z] => y.isListLike && same key l && z.isListLike && sameItems xs (z.items?.getD [])
    | _ => false
  | dict ms _ => y.members?.any fun ns => ms.length == ns.length && sameMembers ms ns
  | object r id ms =>
    (match y with | object r' id' _ => r == r' && id == id' | _ => false) ||
      y.members?.any fun ns => ms.length == ns.length && sameMembers ms ns
  | func f => match y with | func g => f == g | _ => false
  | x => sameNumber x y

def sameItems : List Value → List Value → Bool
  | [], [] => true
  | x :: xs, y :: ys => same x y && sameItems xs ys
  | _, _ => false

def sameMembers : List (Value × Value) → List (Value × Value) → Bool
  | [], _ => true
  | (k, v) :: ms, ns =>
    (match get? k ns with | some w => same v w | none => false) && sameMembers ms ns

end

end Value
end Sigil.Stencil
