import Sigil.Stencil.Value

/-!
# Arguments

How filters, tests and functions take the values that are passed to them: one after the other, each
as the type that is asked for. Named arguments come last, as one dictionary. A value of none and an
undefined one stand for an optional argument that is not passed.
-/

namespace Sigil.Stencil

open Decimal

/-- A reader of arguments. -/
abbrev Taker := StateT (List Value) Result

namespace Value

/-- The text of a value, as an argument. Named arguments have none. -/
def argumentText : Value → Result String
  | dict _ true => .error .badArguments
  | v => .ok v.text

def stringArgument (v : Value) : Result String :=
  v.text?.elim (.error .badArguments) .ok

def flagArgument : Value → Result Bool
  | bool b => .ok b
  | _ => .error .badArguments

def countArgument (v : Value) : Result Nat := v.count?.elim (.error .badArguments) .ok

/-- A whole number with a sign that has some bits. -/
def intArgument (bits : Nat) (v : Value) : Result Int :=
  let bound : Int := pow2 (bits - 1)
  (v.integralIn? (-bound) (bound - 1)).elim (.error .badArguments) .ok

/-- Whether a value stands for an argument that is not passed. -/
def isMissing : Value → Bool
  | undefined => true
  | null => true
  | _ => false

end Value

namespace Taker

def any : Taker Value := do
  match ← get with
  | v :: r =>
    set r
    return v
  | [] => throw .badArguments

/-- The next value, if it is passed. -/
def any? : Taker (Option Value) := do
  match ← get with
  | v :: r =>
    set r
    return if v.isMissing then none else some v
  | [] => return none

/-- The next value as what a function makes of it. -/
def required {α : Type} (f : Value → Result α) : Taker α := do f (← any)

/-- The next value as what a function makes of it, if it is passed. -/
def optional {α : Type} (f : Value → Result α) : Taker (Option α) := do
  match ← any? with
  | some v => return some (← f v)
  | none => return none

def rest : Taker (List Value) := do
  let vs ← get
  set ([] : List Value)
  return vs

def named? (name : String) (ms : List (Value × Value)) : Option Value :=
  (Value.memberNamed name ms).bind fun v => if v.isMissing then none else some v

/-- The named arguments, taken before all others. -/
def members : Taker (List (Value × Value)) := do
  let vs ← get
  match vs.getLast? with
  | some (.dict ms true) =>
    set vs.dropLast
    return ms
  | _ => return []

/-- Fails if a named argument is none of those that are known. -/
def checkNames (known : List String) (ms : List (Value × Value)) : Taker Unit :=
  if ms.all fun m => m.1.text?.any known.contains then return () else throw .badArguments

def run {α : Type} (t : Taker α) (args : List Value) : Result α := do
  match ← StateT.run t args with
  | (x, []) => return x
  | _ => throw .badArguments

end Taker
end Sigil.Stencil
