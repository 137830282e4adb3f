import Sigil.Decimal.Natural
import Sigil.Text.Hex
import Sigil.Text.Utf8
import Sigil.Yaml.Cursor

/-!
# YAML tags

A tag is written between angle brackets, or as a handle with a suffix. Handles stand for the
beginnings of tags, which directives at the start of a document declare. An escape stands for a
byte, so a tag is a list of bytes; it ends in front of a NUL.
-/

namespace Sigil.Yaml

open Text Decimal

abbrev Tag := List UInt8

/-- A tag as it is written: a handle, which is empty if the tag is written out, and what follows. -/
structure TagName where
  handle : List Char
  suffix : Tag
  deriving DecidableEq, Repr

inductive Directive where
  | version (major minor : Nat)
  /-- The beginning of tags that a handle stands for. -/
  | handle (name : List Char) (beginning : Tag)
  deriving DecidableEq, Repr

/-! ## Addresses -/

/-- The characters of a tag's suffix. -/
def isAddressChar (c : Char) : Bool := isNameChar c || ";/?:@&=+$.%!~*'()".toList.contains c

/-- The characters of a tag that is written out. -/
def isWideAddressChar (c : Char) : Bool := isAddressChar c || [',', '[', ']'].contains c

/-- The number of bytes that a first byte announces. -/
def announced? (b : Nat) : Option Nat :=
  if b < 0x80 then some 1
  else if 0xC0 ≤ b && b < 0xE0 then some 2
  else if 0xE0 ≤ b && b < 0xF0 then some 3
  else if 0xF0 ≤ b && b < 0xF8 then some 4
  else none

/-- The bytes that characters of a tag spell. `pending` is the number of bytes that must still be
escaped, because a first byte announced them. -/
def addressBytes : (pending : Nat) → List Char → Option Tag
  | 0, [] => some []
  | _ + 1, [] => none
  | pending, '%' :: a :: b :: r => do
    let n ← ofHex? [a, b]
    let left ←
      if pending = 0 then (announced? n).map (· - 1)
      else if 0x80 ≤ n && n < 0xC0 then some (pending - 1)
      else none
    return UInt8.ofNat n :: (← addressBytes left r)
  | 0, c :: r => if c = '%' then none else do return UInt8.ofNat c.toNat :: (← addressBytes 0 r)
  | _ + 1, _ => none

/-- The longest run of some characters as a tag, behind characters that were read already. -/
def readAddress (p : Char → Bool) (head : List Char) (i : Cursor) : Option (Tag × Cursor) := do
  let (w, i) := i.span p
  let bytes ← addressBytes 0 w
  let head := head.map fun c => UInt8.ofNat c.toNat
  return ((head ++ bytes).takeWhile (· ≠ 0), i)

/-! ## Handles and tags -/

/-- An exclamation mark, and a name with another one behind it if they are there. The handle counts
as closed if it ends in the second mark. -/
def readHandle (i : Cursor) : Option (List Char × Cursor) :=
  match i.rest with
  | '!' :: _ =>
    let (w, j) := (i.skip 1).span isNameChar
    if j.rest.head? = some '!' then some ('!' :: w ++ ['!'], j.skip 1) else some ('!' :: w, j)
  | _ => none

/-- Whether a handle ends in a mark of its own. -/
def isClosed (handle : List Char) : Bool := 1 < handle.length && handle.getLast? = some '!'

def readWrittenTag (i : Cursor) : Option (TagName × Cursor) := do
  let (w, j) := i.span isWideAddressChar
  let (bytes, _) ← readAddress isWideAddressChar [] i
  if w.isEmpty || j.rest.head? ≠ some '>' then none else some (⟨[], bytes⟩, j.skip 1)

/-- A tag behind nothing but its handle. -/
def readShortTag (i : Cursor) : Option (TagName × Cursor) := do
  let (handle, j) ← readHandle i
  if isClosed handle then
    let (bytes, k) ← readAddress isAddressChar [] j
    if k.column = j.column then none else some (⟨handle, bytes⟩, k)
  else
    let (bytes, k) ← readAddress isAddressChar (handle.drop 1) j
    if bytes.isEmpty then some (⟨[], [0x21]⟩, k) else some (⟨['!'], bytes⟩, k)

/-- A tag. Only a blank may follow it, or a comma in a flow collection. -/
def readTag (flow : Bool) (i : Cursor) : Option (TagName × Cursor) := do
  let (t, j) ←
    match i.rest with
    | '!' :: '<' :: _ => readWrittenTag (i.skip 2)
    | _ => readShortTag i
  if endsWord j.rest || flow && j.rest.head? = some ',' then some (t, j) else none

/-- The name of an anchor. Only a blank or one of some signs may follow it. -/
def readAnchor (i : Cursor) : Option (String × Cursor) :=
  let (w, j) := i.span isNameChar
  if w.isEmpty || !(endsWord j.rest || j.rest.head?.any "?:,]\x7d%@\x60".toList.contains) then none
  else some (String.ofList w, j)

/-! ## Directives -/

/-- A part of a version: at most nine digits. -/
def readVersionPart (i : Cursor) : Option (Nat × Cursor) :=
  let (w, j) := i.span Char.isDigit
  if w.isEmpty || 9 < w.length then none else some (ofDigits w, j)

def readDirective (i : Cursor) : Option (Directive × Cursor) := do
  let (name, i) := i.span isNameChar
  if !endsWord i.rest then none
  let i := i.pastSpaces
  if name = "YAML".toList then
    let (major, i) ← readVersionPart i
    if i.rest.head? ≠ some '.' then none
    let (minor, i) ← readVersionPart (i.skip 1)
    return (.version major minor, ← i.pastLine?)
  else if name = "TAG".toList then
    let (handle, i) ← readHandle i
    if handle ≠ ['!'] && !isClosed handle || !i.rest.head?.any isSpace then none
    let i := i.pastSpaces
    let (beginning, j) ← readAddress isWideAddressChar [] i
    if j.column = i.column || !endsWord j.rest then none
    return (.handle handle beginning, ← j.pastLine?)
  else none

/-! ## Meaning -/

/-- The handles that need no declaration. -/
def standardHandles : List (List Char × Tag) :=
  [(['!'], [0x21]), (['!', '!'], Utf8.encode "tag:yaml.org,2002:")]

def TagName.resolve? (t : TagName) (handles : List (List Char × Tag)) : Option Tag :=
  if t.handle.isEmpty then some t.suffix
  else ((handles ++ standardHandles).lookup t.handle).map (· ++ t.suffix)

/-- The handles that directives declare. A handle is declared at most once, and a version is at most
once told: 1.1 or 1.2. -/
def declaredHandles? : (versioned : Bool) → List Directive → Option (List (List Char × Tag))
  | _, [] => some []
  | versioned, .version major minor :: ds =>
    if versioned || major ≠ 1 || !(minor == 1 || minor == 2) then none
    else declaredHandles? true ds
  | versioned, .handle name beginning :: ds => do
    let hs ← declaredHandles? versioned ds
    if (hs.lookup name).isSome then none else some ((name, beginning) :: hs)

end Sigil.Yaml
