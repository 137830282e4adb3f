import Sigil.Decimal.Natural
import Sigil.Text.Hex
import Sigil.Yaml.Cursor

/-!
# YAML scalars

The five ways to write a scalar. Lines of a plain or quoted scalar are folded: a line feed between
two lines is a blank, and every further line end is kept. `readPlain` stops where a plain scalar may
not go on, `readQuoted` at the closing quote, and `readBlock` at the first line that is not indented
enough.
-/

namespace Sigil.Yaml

open Text Decimal

/-! ## Folding -/

/-- What stands between two characters of a scalar that are no blanks. -/
inductive Gap where
  /-- Blanks, in reverse. -/
  | blanks (reversed : List Char)
  /-- The ends of lines, the later ones in reverse; a first one behind a backslash does not count.
  -/
  | lines (first : Option Char) (reversed : List Char)

namespace Gap

/-- What a gap folds to, in reverse. -/
def folded : Gap → List Char
  | blanks r => r
  | lines (some '\n') [] => [' ']
  | lines (some '\n') r => r
  | lines (some c) r => r ++ [c]
  | lines none r => r

def blank (c : Char) : Gap → Gap
  | blanks r => blanks (c :: r)
  | g => g

def line (c : Char) : Gap → Gap
  | blanks _ => lines (some c) []
  | lines first r => lines first (c :: r)

def isEmpty : Gap → Bool
  | blanks [] => true
  | _ => false

def isLines : Gap → Bool
  | lines .. => true
  | _ => false

end Gap

structure Read where
  text : List Char
  next : Cursor
  /-- Whether a line ended behind it. -/
  crossed : Bool := false

/-! ## Plain scalars -/

/-- A plain scalar. `acc` is what was read of it, in reverse, and `gap` what followed that. Outside
of flow collections the lines that go on with it start in column `indent` or behind it. -/
def readPlain (flow : Bool) (indent : Nat) :
    (s : List Char) → (line column : Nat) → (gap : Gap) → (acc : List Char) → Option Read
  | [], line, column, gap, acc => some ⟨acc.reverse, ⟨[], line, column⟩, gap.isLines⟩
  | c :: r, line, column, gap, acc =>
    let stop := some ⟨acc.reverse, ⟨c :: r, line, column⟩, gap.isLines⟩
    if isBreak c then readPlain flow indent r (line + 1) 0 (gap.line c) acc
    else if isSpace c then
      if c = '\t' && gap.isLines && column < indent then none
      else readPlain flow indent r line (column + 1) (gap.blank c) acc
    else if column = 0 && isMark (c :: r) then stop
    else if gap.isLines && !flow && column < indent then stop
    else if c = '#' && !gap.isEmpty then stop
    else if c = ':' && endsWord r then stop
    else if flow && isFlowSign c then stop
    else if flow && c = ':' && r.head?.any (fun d => isFlowSign d || d == '?') then none
    else readPlain flow indent r line (column + 1) (.blanks []) (c :: (gap.folded ++ acc))

/-! ## Quoted scalars -/

def escaped? : Char → Option Char
  | '0' => some '\x00'
  | 'a' => some '\x07'
  | 'b' => some '\x08'
  | 't' => some '\t'
  | '\t' => some '\t'
  | 'n' => some '\n'
  | 'v' => some '\x0b'
  | 'f' => some '\x0c'
  | 'r' => some '\r'
  | 'e' => some '\x1b'
  | ' ' => some ' '
  | '"' => some '"'
  | '/' => some '/'
  | '\\' => some '\\'
  | 'N' => some '\u0085'
  | '_' => some '\u00a0'
  | 'L' => some '\u2028'
  | 'P' => some '\u2029'
  | _ => none

/-- The number of hexadecimal digits behind a letter that asks for a code point. -/
def codeLength? : Char → Option Nat
  | 'x' => some 2
  | 'u' => some 4
  | 'U' => some 8
  | _ => none

/-- The character for what follows a backslash, and how much of it stands for it. -/
def unescape? : List Char → Option (Char × Nat)
  | [] => none
  | c :: r =>
    match codeLength? c with
    | some n =>
      if r.length < n then none else (charOfHex? (r.take n)).map fun d => (d, n + 1)
    | none => (escaped? c).map fun d => (d, 1)

/-- A quoted scalar behind its opening quote. In double quotes a backslash escapes, in single quotes
two quotes stand for one. -/
def readQuoted (double : Bool) (s : List Char) (line column : Nat) (gap : Gap) (acc : List Char) :
    Option Read :=
  match s with
  | [] => none
  | c :: r =>
    if isBreak c then readQuoted double r (line + 1) 0 (gap.line c) acc
    else if isSpace c then readQuoted double r line (column + 1) (gap.blank c) acc
    else
      let acc := gap.folded ++ acc
      if column = 0 && isMark (c :: r) then none
      else if double && c = '\\' then
        if r.head?.any isBreak then readQuoted double (r.drop 1) (line + 1) 0 (.lines none []) acc
        else
          match unescape? r with
          | some (d, n) =>
            readQuoted double (r.drop n) line (column + 1 + n) (.blanks []) (d :: acc)
          | none => none
      else if c = (if double then '"' else '\'') then
        if !double && r.head? = some '\'' then
          readQuoted double (r.drop 1) line (column + 2) (.blanks []) ('\'' :: acc)
        else some ⟨acc.reverse, ⟨r, line, column + 1⟩, false⟩
      else readQuoted double r line (column + 1) (.blanks []) (c :: acc)
termination_by s.length

/-! ## Block scalars -/

/-- What becomes of the line ends at the end of a block scalar. -/
inductive Chomping where
  | strip
  | clip
  | keep
  deriving DecidableEq, Repr

/-- The signs behind the opening sign of a block scalar: chomping and indentation, in either order.
-/
def blockSigns (i : Cursor) : Option (Chomping × Option Nat × Cursor) :=
  let chomping? (c : Char) : Option Chomping :=
    if c = '+' then some .keep else if c = '-' then some .strip else none
  let indent? (c : Char) : Option Nat :=
    if c.isDigit && c ≠ '0' then some (digitValue c) else none
  match i.rest with
  | [] => some (.clip, none, i)
  | c :: r =>
    match chomping? c, indent? c with
    | some k, _ =>
      match r.head?.bind indent? with
      | some n => some (k, some n, i.skip 2)
      | none => some (k, none, i.skip 1)
    | none, some n =>
      match r.head?.bind chomping? with
      | some k => some (k, some n, i.skip 2)
      | none => some (.clip, some n, i.skip 1)
    | none, none => some (.clip, none, i)

/-- What precedes a line of a block scalar. -/
structure Indentation where
  /-- The ends of empty lines, in reverse. -/
  breaks : List Char
  /-- The greatest column that spaces reach. -/
  reached : Nat
  next : Cursor

/-- Past empty lines and the indentation of the next line, which is at most `indent` if it is known.
A tab may not stand in its place. -/
def readIndentation (indent : Option Nat) :
    (s : List Char) → (line column reached : Nat) → (breaks : List Char) → Option Indentation
  | [], line, column, reached, breaks =>
    some ⟨breaks, max reached column, ⟨[], line, column⟩⟩
  | c :: r, line, column, reached, breaks =>
    let short := indent.all (column < ·)
    if c = ' ' && short then readIndentation indent r line (column + 1) reached breaks
    else if c = '\t' && short then none
    else if isBreak c then
      readIndentation indent r (line + 1) 0 (max reached column) (c :: breaks)
    else some ⟨breaks, max reached column, ⟨c :: r, line, column⟩⟩

/-- The lines of a block scalar from one on that starts at a cursor. `ending` is the end of the line
before and `breaks` the ends of empty lines behind it, in reverse; `deeper` tells whether the line
before starts with a blank. -/
def blockLines (fold : Bool) (chomping : Chomping) (indent : Nat) :
    (fuel : Nat) → (i : Cursor) → (ending : Option Char) → (breaks : List Char) →
    (deeper : Bool) → (acc : List Char) → Option Read
  | 0, _, _, _, _, _ => none
  | fuel + 1, i, ending, breaks, deeper, acc =>
    if i.column = indent && !i.rest.isEmpty then do
      let blank := i.rest.head?.any isSpace
      let gap :=
        if fold && ending = some '\n' && !deeper && !blank then
          if breaks.isEmpty then [' '] else breaks
        else breaks ++ ending.toList
      let (text, i) := i.span fun _ => true
      let next := i.pastBreak
      let d ← readIndentation (some indent) next.rest next.line next.column 0 []
      blockLines fold chomping indent fuel d.next i.rest.head? d.breaks blank
        (text.reverse ++ (gap ++ acc))
    else
      let tail :=
        match chomping with
        | .strip => []
        | .clip => ending.toList
        | .keep => breaks ++ ending.toList
      some ⟨(tail ++ acc).reverse, i, false⟩

/-- A block scalar behind its opening sign, inside of a block that starts in column `parent`. -/
def readBlock (fold : Bool) (parent : Int) (i : Cursor) : Option Read := do
  let (chomping, given, i) ← blockSigns i
  let i ← i.pastLine?
  let known := given.map ((max parent 0).toNat + ·)
  let d ← readIndentation known i.rest i.line i.column 0 []
  let indent := known.getD (max (max d.reached (parent + 1).toNat) 1)
  blockLines fold chomping indent (i.rest.length + 1) d.next none d.breaks false []

end Sigil.Yaml
