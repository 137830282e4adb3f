import Sigil.Decimal.Shortest
import Sigil.Order.Keyed

/-!
# JSON values

Values and their compact text: no blanks, object members in ascending order of their keys, and only
the characters escaped that have to be. Whole numbers are exact; any other number is a binary64
number, written as its shortest decimal.
-/

namespace Sigil

open Decimal

/-- A number: a whole one, a negative whole one `-n`, or a binary64 one. -/
inductive Number where
  | whole (n : Nat)
  | negative (n : Nat)
  | float (minus : Bool) (magnitude : Magnitude)
  deriving DecidableEq, Repr

namespace Number

/-- All digits are written out from `1e-5` up to sixteen digits before the point. -/
def layout : Layout := ⟨-5, 15, "+"⟩

def text : Number → List Char
  | whole n => Nat.toDigits 10 n
  | negative n => '-' :: Nat.toDigits 10 n
  | float minus x =>
    (if minus then ['-'] else []) ++
      if x.isZero then ['0', '.', '0'] else layout.text x.shortest

end Number

/-- A JSON value. The members of an object ascend by key. -/
inductive Json where
  | null
  | bool (b : Bool)
  | num (n : Number)
  | str (s : String)
  | arr (items : List Json)
  | obj (members : List (String × Json))
  deriving Repr, Inhabited

namespace Json

/-- A digit below sixteen, in lower case. -/
def hexDigit (n : Nat) : Char := Nat.digitChar (n % 16)

/-- A character inside a string. -/
def escape (c : Char) : List Char :=
  if c = '"' then ['\\', '"']
  else if c = '\\' then ['\\', '\\']
  else if c = '\n' then ['\\', 'n']
  else if c = '\r' then ['\\', 'r']
  else if c = '\t' then ['\\', 't']
  else if c.toNat = 8 then ['\\', 'b']
  else if c.toNat = 12 then ['\\', 'f']
  else if c.toNat < 32 then ['\\', 'u', '0', '0', hexDigit (c.toNat / 16), hexDigit c.toNat]
  else [c]

def quoted (s : List Char) : List Char := '"' :: s.flatMap escape ++ ['"']

mutual

/-- The compact text. -/
def chars : Json → List Char
  | null => ['n', 'u', 'l', 'l']
  | bool true => ['t', 'r', 'u', 'e']
  | bool false => ['f', 'a', 'l', 's', 'e']
  | num n => n.text
  | str s => quoted s.toList
  | arr [] => ['[', ']']
  | arr (j :: js) => '[' :: chars j ++ charsRest js ++ [']']
  | obj [] => ['{', '}']
  | obj ((k, v) :: ms) => '{' :: quoted k.toList ++ ':' :: chars v ++ membersRest ms ++ ['}']

def charsRest : List Json → List Char
  | [] => []
  | j :: js => ',' :: chars j ++ charsRest js

def membersRest : List (String × Json) → List Char
  | [] => []
  | (k, v) :: ms => ',' :: quoted k.toList ++ ':' :: chars v ++ membersRest ms

end

def text (j : Json) : String := String.ofList j.chars

/-- An object; of two members with one key the later counts. -/
def ofMembers (ms : List (String × Json)) : Json := obj (Keyed.ofList ms)

def get? (j : Json) (k : String) : Option Json :=
  match j with
  | obj ms => Keyed.get? k ms
  | _ => none

def ofNat (n : Nat) : Json := num (.whole n)

end Json
end Sigil
