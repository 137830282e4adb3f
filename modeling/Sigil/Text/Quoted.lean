import Sigil.Text.Printable

/-!
# Quoted texts

A text as a string literal: between double quotes, with a backslash in front of quotes and
backslashes, letters for the common control characters, and the code point of every character that
does not print by itself.
-/

namespace Sigil.Text

/-- The code point of a character, in lower-case hexadecimal digits. -/
def codePoint (c : Char) : List Char := '\\' :: 'u' :: '{' :: Nat.toDigits 16 c.toNat ++ ['}']

/-- The Hangul fillers, which are letters but show nothing. -/
def isFiller (c : Char) : Bool :=
  c = '\u115F' || c = '\u1160' || c = '\u3164' || c = '\uFFA0'

/-- The half-width Katakana voice marks, which extend the letter before them but stand in a cell of
their own. -/
def isVoiceMark (c : Char) : Bool := c = '\uFF9E' || c = '\uFF9F'

/-- Whether a character would not be seen, or not apart from its neighbour. -/
def isHidden (c : Char) : Bool :=
  !isPrintable c || isFiller c || (isGraphemeExtend c && !isVoiceMark c)

/-- A character inside a string literal. -/
def escape (c : Char) : List Char :=
  if c = '\x00' then ['\\', '0']
  else if c = '\t' then ['\\', 't']
  else if c = '\r' then ['\\', 'r']
  else if c = '\n' then ['\\', 'n']
  else if c = '\\' then ['\\', '\\']
  else if c = '"' then ['\\', '"']
  else if isHidden c then codePoint c
  else [c]

def quoted (s : List Char) : List Char := '"' :: s.flatMap escape ++ ['"']

def quote (s : String) : String := String.ofList (quoted s.toList)

example : quoted ['a', '"', '\n'] = ['"', 'a', '\\', '"', '\\', 'n', '"'] := by decide +kernel

end Sigil.Text
