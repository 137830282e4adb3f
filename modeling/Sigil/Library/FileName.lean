import Sigil.Decimal.Natural
import Sigil.Text.Blank
import Sigil.Text.Pieces

/-!
# Library file names

The file name of a library holds its name and its version, as in `libfoo-2.31.so` or `libc.so.6`.
`LibraryName.read` takes both apart; a part behind the last hyphen that is no number, such as a
hash, belongs to neither.
-/

namespace Sigil.Library

open Text

/-- The numbers of a version; without numbers it is the lowest version. -/
structure Version where
  parts : List Nat
  deriving DecidableEq, Repr, Inhabited

namespace Version

/-- The order of number lists: by the first difference, and a beginning before what goes on. -/
def compareParts : List Nat → List Nat → Ordering
  | [], [] => .eq
  | [], _ :: _ => .lt
  | _ :: _, [] => .gt
  | a :: as, b :: bs => (compare a b).then (compareParts as bs)

def compare (v w : Version) : Ordering := compareParts v.parts w.parts

def isUnversioned (v : Version) : Bool := v.parts.isEmpty

def text (v : Version) : String :=
  if v.isUnversioned then "0" else ".".intercalate (v.parts.map toString)

theorem compareParts_eq_iff : ∀ {a b : List Nat}, compareParts a b = .eq ↔ a = b
  | [], [] => by simp [compareParts]
  | [], _ :: _ => by simp [compareParts]
  | _ :: _, [] => by simp [compareParts]
  | a :: as, b :: bs => by
    simp [compareParts, Ordering.then_eq_eq, compareParts_eq_iff]

end Version

/-- The text behind `lib`, or all of it. -/
def stem (s : List Char) : List Char := (after? ['l', 'i', 'b'] s).getD s

/-- What stands before and after the last hyphen. -/
def lastHyphen? (s : List Char) : Option (List Char × List Char) :=
  let after := (s.reverse.takeWhile (· ≠ '-')).reverse
  if after.length = s.length then none
  else some (s.take (s.length - after.length - 1), after)

/-- A name cut at its last hyphen, if something stands in front and only letters and digits behind;
otherwise the whole name. What is cut off starts with the hyphen. -/
def cutHyphen (head : List Char) : List Char × List Char :=
  match lastHyphen? head with
  | some (a, b) => if !a.isEmpty && b.all Char.isAlphanum then (a, '-' :: b) else (head, [])
  | none => (head, [])

def numbers (s : List Char) : List Nat :=
  ((fields '.' s).flatMap (fields '-')).filterMap fun part =>
    if part.isEmpty || !part.all Char.isDigit then none else Decimal.natural? part

def readFileName (fileName : String) : String × Version :=
  let s := stem fileName.toList
  let head := s.takeWhile (· ≠ '.')
  let (name, rest) := cutHyphen head
  (String.ofList name, ⟨numbers (rest ++ s.drop head.length)⟩)

def isSharedName (fileName : String) : Bool :=
  let s := fileName.toList
  endsWith s ['.', 's', 'o'] || contains ['.', 's', 'o', '.'] s ||
    endsWith s ['.', 'd', 'y', 'l', 'i', 'b'] || endsWith s ['.', 'd', 'l', 'l']

/-- Whether a file name is one of a library that code can be linked against by its name. -/
def isCrateName (fileName : String) : Bool :=
  let s := fileName.toList
  endsWith s ['.', 'r', 'l', 'i', 'b'] || endsWith s ['.', 'r', 'm', 'e', 't', 'a']

example : readFileName "libfoo-2.31.so" = ("foo", ⟨[2, 31]⟩) := by decide +kernel

example : readFileName "libserde_json-1a2b.rlib" = ("serde_json", ⟨[]⟩) := by decide +kernel

end Sigil.Library
