/-!
# Expressions and parts of a stencil

What the tokens of a stencil are read into. A stencil is a list of parts; a part is text, the output
of an expression, or a tag with the parts inside it.
-/

namespace Sigil.Stencil

inductive BinaryOp where
  | add
  | sub
  | concat
  | mul
  | div
  | floorDiv
  | mod
  | pow
  deriving DecidableEq, Repr

inductive Comparison where
  | eq
  | ne
  | lt
  | le
  | gt
  | ge
  | contained
  | notContained
  deriving DecidableEq, Repr

inductive Passing where
  | positional
  /-- Every item of a list. -/
  | items
  | named (name : String)
  /-- Every member of a dictionary. -/
  | members
  deriving DecidableEq, Repr

inductive Expr where
  | null
  | bool (b : Bool)
  | whole (n : Nat)
  /-- The number `digits * 10^exponent`. -/
  | decimal (digits : Nat) (exponent : Int)
  | str (s : String)
  | var (name : String)
  | list (items : List Expr)
  /-- Keys and values, one for one. -/
  | dict (keys values : List Expr)
  | member (e : Expr) (name : String)
  | index (e key : Expr)
  /-- The items between two places, in some steps. -/
  | slice (e start stop step : Expr)
  | call (callee : Expr) (args : List (Passing × Expr))
  | not (e : Expr)
  | minus (e : Expr)
  /-- Both operands, of which the second counts if the first is true. -/
  | and (l r : Expr)
  /-- Both operands, of which the second counts if the first is false. -/
  | or (l r : Expr)
  | binary (op : BinaryOp) (l r : Expr)
  /-- A chain of comparisons, which must all hold. -/
  | compare (first : Expr) (chain : List (Comparison × Expr))
  /-- The value of `yes` if the test holds, and of `no` otherwise. -/
  | cond (test yes no : Expr)
  /-- No value. -/
  | undefined
  | filter (name : String) (e : Expr) (args : List (Passing × Expr))
  | test (name : String) (e : Expr) (args : List (Passing × Expr))
  deriving Repr, Inhabited

abbrev Args := List (Passing × Expr)

def Expr.path? : Expr → Option (List String)
  | .var s => some [s]
  | .member e s => e.path?.map (s :: ·)
  | _ => none

/-- Whether the only argument comes from the same place as an expression. -/
def Expr.isPassed (e : Expr) (args : Args) : Bool :=
  match e.path?, args with
  | some p, [(.positional, arg)] => arg.path? == some p
  | _, _ => false

/-- A pattern of names that a value is bound to. -/
inductive Target where
  | name (s : String)
  /-- The member of an object. -/
  | member (e : Expr) (name : String)
  | tuple (ts : List Target)
  deriving Repr, Inhabited

structure FilterCall where
  name : String
  args : Args
  deriving Repr, Inhabited

/-- A parameter of a routine; a value for it when none is passed. -/
structure Parameter where
  name : String
  default : Option Expr
  deriving Repr, Inhabited

inductive Part where
  | text (s : String)
  | output (e : Expr)
  | cond (test : Expr) (yes no : List Part)
  /-- The parts for every item that the condition lets through, or the other parts if there is no
  such item. A recursive loop may be entered again from inside. -/
  | each (target : Target) (items : Expr) (condition : Option Expr) (recursive : Bool)
      (body otherwise : List Part)
  | bind (target : Target) (e : Expr)
  /-- The text of the parts, filtered, bound to a target. -/
  | bindText (target : Target) (filters : List FilterCall) (body : List Part)
  /-- The parts with names bound for them alone. -/
  | scope (bindings : List (Target × Expr)) (body : List Part)
  /-- The text of the parts, filtered. -/
  | filtered (filters : List FilterCall) (body : List Part)
  /-- The parts with markup of output values escaped or not. -/
  | escaped (mode : Expr) (body : List Part)
  /-- The parts of a block with a name. -/
  | block (name : String) (body : List Part)
  /-- The text of another stencil; it may be missing if `optional` holds. -/
  | embed (name : Expr) (optional : Bool)
  /-- What needs the definitions of another stencil. -/
  | require (name : Expr)
  /-- A routine bound to its name: parts that a call writes. -/
  | routine (name : String) (params : List Parameter) (body : List Part)
  /-- The value of a call to which the parts are passed as a routine. -/
  | callWith (callee : Expr) (args : Args) (params : List Parameter) (body : List Part)
  /-- A call without output. -/
  | perform (callee : Expr) (args : Args)
  deriving Repr, Inhabited

end Sigil.Stencil
