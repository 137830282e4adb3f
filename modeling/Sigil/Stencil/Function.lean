import Sigil.Stencil.Arguments

/-!
# Functions

The functions that every stencil knows, apart from the one that makes a space.
-/

namespace Sigil.Stencil

namespace Builtin

def rangeLimit : Nat := 100000

def rangeOf (low high step : Int) : Result Value :=
  let count := if 0 < step then (high - low + step - 1) / step else (low - high - step - 1) / -step
  if step = 0 then .error .badArguments
  else if rangeLimit < count then .error .outOfRange
  else .ok (.ofLazy ((List.range count.toNat).map fun (k : Nat) => .int (low + step * k)))

def callRange : Taker Value := do
  let first ← Taker.required (Value.intArgument 64)
  let second ← Taker.optional (Value.intArgument 64)
  let step ← Taker.optional (Value.intArgument 64)
  match second with
  | some high => rangeOf first high (step.getD 1)
  | none => rangeOf 0 first (step.getD 1)

def callDict : Taker Value := do
  let named ← Taker.members
  match ← Taker.any? with
  | none => return .dict (Value.putAll [] named) false
  | some v =>
    match v.members? with
    | some ms => return .dict (Value.putAll ms named) false
    | none => throw .badArguments

def callDebug : Taker Value := do
  match ← Taker.rest with
  | [] => throw .badArguments
  | [v] => return .ofText (v.wideText 0)
  | vs => return .ofText ((Value.ofList vs).wideText 0)

def spaceMembers : Taker (List (Value × Value)) := do
  match ← Taker.any? with
  | none => return []
  | some v =>
    match v.members? with
    | some ms =>
      if ms.all (·.1.rank == 4) then return ms.mergeSort fun a b => a.1.order b.1 != .gt
      else throw .badArguments
    | none => throw .badArguments

end Builtin
end Sigil.Stencil
