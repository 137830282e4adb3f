/-!
# Hexadecimal digits
-/

namespace Sigil.Text

def hexValue? (c : Char) : Option Nat :=
  if c.isDigit then some (c.toNat - '0'.toNat)
  else if 'a' ≤ c && c ≤ 'f' then some (c.toNat - 'a'.toNat + 10)
  else if 'A' ≤ c && c ≤ 'F' then some (c.toNat - 'A'.toNat + 10)
  else none

def ofHex? (digits : List Char) : Option Nat :=
  (digits.mapM hexValue?).map fun ds => ds.foldl (fun n d => 16 * n + d) 0

/-- The character whose code hexadecimal digits spell. -/
def charOfHex? (digits : List Char) : Option Char :=
  match ofHex? digits with
  | some n => if n.isValidChar then some (Char.ofNat n) else none
  | none => none

example : ofHex? ['1', 'f', 'A'] = some 506 := by decide

example : charOfHex? ['d', '8', '0', '0'] = none := by decide

end Sigil.Text
