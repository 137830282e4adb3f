import Sigil.Json.Reader

/-!
# Records

A record is written as an object with its fields, or as an array of them in their order. A field
must not be written twice; members that are no fields are read over, whatever they hold.
-/

namespace Sigil.Json.Written

def valuesOf (key : String) (ms : List (Option String × Written)) : List Written :=
  (ms.filter (·.1 == some key)).map (·.2)

/-- The value of a field, if it is written; `none` if it is written twice. -/
def fieldIn? (ms : List (Option String × Written)) (key : String) : Option (Option Written) :=
  match valuesOf key ms with
  | [] => some none
  | [x] => some (some x)
  | _ => none

/-- The fields of a record, each if it is written. -/
def fields? (keys : List String) : Written → Option (List (Option Written))
  | obj ms => if ms.all (·.1.isSome) then keys.mapM (fieldIn? ms) else none
  | arr xs =>
    if xs.length ≤ keys.length then some ((List.range keys.length).map (xs[·]?)) else none
  | _ => none

def text? : Written → Option String
  | str s => s
  | _ => none

def nat? : Written → Option Nat
  | num n =>
    match n.number? with
    | some (.whole k) => some k
    | _ => none
  | _ => none

def bool? : Written → Option Bool
  | bool b => some b
  | _ => none

def items? : Written → Option (List Written)
  | arr xs => some xs
  | _ => none

end Sigil.Json.Written
