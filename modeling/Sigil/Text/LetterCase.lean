import Sigil.Text.CaseTables
import Sigil.Text.GraphemeExtend

/-!
# Upper and lower case

A text in upper or lower case. A character may become several ones, and a capital sigma at the end
of a word has a small letter of its own.
-/

namespace Sigil.Text

/-- The image of a code point under some runs. -/
def shifted? (runs : List CaseRun) (n : Nat) : Option Nat :=
  (runs.find? fun (a, b, step, _) => a ≤ n && n ≤ b && (n - a) % step == 0).map
    fun (_, _, _, shift) => (n + shift).toNat

def mapCase (runs : List CaseRun) (expansions : List (Nat × List Nat)) (c : Char) : List Char :=
  match expansions.lookup c.toNat with
  | some ns => ns.map Char.ofNat
  | none => [Char.ofNat ((shifted? runs c.toNat).getD c.toNat)]

def upperChar (c : Char) : List Char :=
  if c.toNat < 0x80 then [c.toUpper] else mapCase upperRuns upperExpansions c

def lowerChar (c : Char) : List Char :=
  if c.toNat < 0x80 then [c.toLower] else mapCase lowerRuns lowerExpansions c

def inRuns (runs : List (Nat × Nat × Nat)) (n : Nat) : Bool :=
  runs.any fun (a, b, step) => a ≤ n && n ≤ b && (n - a) % step == 0

/-- Unicode's Lowercase property. -/
def isLowercase (c : Char) : Bool := inRuns lowercaseRuns c.toNat

def isUppercase (c : Char) : Bool := inRuns uppercaseRuns c.toNat

def isCased (c : Char) : Bool :=
  isLowercase c || isUppercase c || inRanges titlecaseRanges c.toNat

/-- Whether a character does not matter for where a word ends. -/
def isCaseIgnorable (c : Char) : Bool := inRanges caseIgnorableRanges c.toNat

/-- Whether the first character that matters is a letter with two cases. -/
def startsCased (s : List Char) : Bool := (s.dropWhile isCaseIgnorable).head?.any isCased

def upperText (s : List Char) : List Char := s.flatMap upperChar

/-- A text in lower case, behind some characters in reverse. -/
def lowerFrom : (before : List Char) → List Char → List Char
  | _, [] => []
  | before, c :: r =>
    (if c = 'Σ' && startsCased before && !startsCased r then ['ς'] else lowerChar c) ++
      lowerFrom (c :: before) r

def lowerText (s : List Char) : List Char := lowerFrom [] s

def capitalText : List Char → List Char
  | [] => []
  | c :: r => upperChar c ++ lowerText r

example : upperText ['ß', 'é'] = ['S', 'S', 'É'] := by decide +kernel

example : lowerText ['Ο', 'Σ', '!'] = ['ο', 'ς', '!'] := by decide +kernel

end Sigil.Text
