/-!
# Whole numbers of 64 bits

`natural?` reads a whole number as it stands in a path segment or a version: ASCII digits, maybe a
plus sign in front, and a value that 64 bits hold.
-/

namespace Sigil.Decimal

def digitValue (c : Char) : Nat := c.toNat - '0'.toNat

def ofDigits (ds : List Char) : Nat := ds.foldl (fun n c => 10 * n + digitValue c) 0

def pow2 (k : Nat) : Nat := Nat.pow 2 k

def pow10 (k : Nat) : Nat := Nat.pow 10 k

def bound64 : Nat := pow2 64

/-- Without one plus sign in front. -/
def dropPlus : List Char → List Char
  | '+' :: r => r
  | s => s

/-- The number that a whole text spells. -/
def natural? (s : List Char) : Option Nat :=
  let ds := dropPlus s
  if ds.isEmpty || !ds.all Char.isDigit then none
  else if ofDigits ds < bound64 then some (ofDigits ds)
  else none

example : natural? ['+', '0', '1'] = some 1 := by decide

example : natural? ['+'] = none := by decide

end Sigil.Decimal
