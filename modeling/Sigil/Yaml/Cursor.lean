/-!
# Places in a YAML text

A cursor is what is left of a text with the line and column where it starts. Lines end in a line
feed, or in one of Unicode's separators of lines and paragraphs; `lineFeeds` makes a line feed of
every other line end.
-/

namespace Sigil.Yaml

/-- A line end, after `lineFeeds`. -/
def isBreak (c : Char) : Bool := c == '\n' || c == '\u2028' || c == '\u2029'

def isSpace (c : Char) : Bool := c == ' ' || c == '\t'

/-- Whether a blank, a line end or the end of the text follows. -/
def endsWord : List Char → Bool
  | [] => true
  | c :: _ => isSpace c || isBreak c

/-- Whether a line starts with the mark of a document's start or end. -/
def isMark (s : List Char) : Bool :=
  match s with
  | '-' :: '-' :: '-' :: r => endsWord r
  | '.' :: '.' :: '.' :: r => endsWord r
  | _ => false

def isFlowSign (c : Char) : Bool := c == ',' || c == '[' || c == ']' || c == '{' || c == '}'

def isNameChar (c : Char) : Bool := c.isAlphanum || c == '_' || c == '-'

def isAllowed (c : Char) : Bool :=
  let n := c.toNat
  n == 9 || n == 10 || n == 13 || (0x20 ≤ n && n ≤ 0x7E) || n == 0x85 ||
    (0xA0 ≤ n && n ≤ 0xFFFD) || 0x10000 ≤ n

/-- Every carriage return, with a line feed behind it or not, and every next line as a line feed. -/
def lineFeeds : List Char → List Char
  | '\r' :: '\n' :: r => '\n' :: lineFeeds r
  | '\r' :: r => '\n' :: lineFeeds r
  | '\u0085' :: r => '\n' :: lineFeeds r
  | c :: r => c :: lineFeeds r
  | [] => []

structure Cursor where
  rest : List Char
  line : Nat := 0
  column : Nat := 0
  deriving Repr, Inhabited

namespace Cursor

def skip (i : Cursor) (n : Nat) : Cursor :=
  { i with rest := i.rest.drop n, column := i.column + n }

/-- The longest run of characters of a line that have some property, and the place behind it. -/
def span (i : Cursor) (p : Char → Bool) : List Char × Cursor :=
  let w := i.rest.takeWhile fun c => p c && !isBreak c
  (w, i.skip w.length)

def pastSpaces (i : Cursor) : Cursor := (i.span isSpace).2

def pastComment (i : Cursor) : Cursor :=
  if i.rest.head? = some '#' then (i.span fun _ => true).2 else i

def pastBreak (i : Cursor) : Cursor :=
  match i.rest with
  | c :: r => if isBreak c then ⟨r, i.line + 1, 0⟩ else i
  | [] => i

/-- Whether a line or the text ends here. -/
def atBreak (i : Cursor) : Bool := i.rest.head?.all isBreak

/-- Past what may stand at the end of a line: blanks, a comment and the line end. -/
def pastLine? (i : Cursor) : Option Cursor :=
  let i := i.pastSpaces.pastComment
  if i.atBreak then some i.pastBreak else none

end Cursor
end Sigil.Yaml
