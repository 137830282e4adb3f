import Sigil.Decimal.Natural
import Sigil.Text.Blank
import Sigil.Text.Hex
import Sigil.Text.Pieces

/-!
# Tokens of a stencil

A stencil is text with outputs between double braces, tags between brace and percent sign, and
comments between brace and number sign. A minus sign at a marker's inner side takes away all blanks
on its outer side and a plus sign keeps them. Otherwise a tag or comment takes away the blanks
between it and the start of its line, and one line end behind it. `scan` cuts a stencil into tokens.
-/

namespace Sigil.Stencil

open Text Decimal

inductive Token where
  /-- Text outside of all markers; never empty. -/
  | text (s : String)
  | openOutput
  | closeOutput
  | openTag
  | closeTag
  | name (s : String)
  | str (s : String)
  | whole (n : Nat)
  /-- The number `digits * 10^exponent`. -/
  | decimal (digits : Nat) (exponent : Int)
  | op (s : String)
  deriving DecidableEq, Repr

/-! ## Blanks at markers -/

/-- What a marker does to the blanks on its outer side. -/
inductive Trimming where
  | line
  | keep
  | all
  deriving DecidableEq, Repr

/-- The sign at a marker's inner side, and the text behind it. -/
def takeSign : List Char → Trimming × List Char
  | '-' :: r => (.all, r)
  | '+' :: r => (.keep, r)
  | s => (.line, s)

def isLineEnd (c : Char) : Bool := c == '\n' || c == '\r'

/-- Without the blanks at the end, if they reach to the start of a line. -/
def dropIndent (s : List Char) : List Char :=
  let t := dropEndWhile (fun c => isBlank c && !isLineEnd c) s
  if t.getLast?.all isLineEnd then t else s

/-- Whether only blanks stand between the end of a text and the start of its last line. -/
def endsInIndent (s : List Char) : Bool :=
  (s.reverse.dropWhile fun c => isBlank c && !isLineEnd c).head?.all isLineEnd

def dropLineEnd : List Char → List Char
  | '\r' :: '\n' :: r => r
  | '\r' :: r => r
  | '\n' :: r => r
  | s => s

/-! ## Names, numbers and strings -/

def isNameHead (c : Char) : Bool := c.isAlpha || c == '_'

def isNameTail (c : Char) : Bool := c.isAlphanum || c == '_'

/-- The character that a letter behind a backslash stands for. -/
def escaped? : Char → Option Char
  | '"' => some '"'
  | '\'' => some '\''
  | '\\' => some '\\'
  | '/' => some '/'
  | 'b' => some '\x08'
  | 'f' => some '\x0c'
  | 'n' => some '\n'
  | 'r' => some '\r'
  | 't' => some '\t'
  | _ => none

def rawString (quote : Char) : (escaped : Bool) → List Char → Option (List Char × List Char)
  | _, [] => none
  | true, c :: r => (rawString quote false r).map fun (s, t) => (c :: s, t)
  | false, c :: r =>
    if c = quote then some ([], r)
    else (rawString quote (c = '\\') r).map fun (s, t) => (c :: s, t)

/-- The number that some hexadecimal digits spell; the first one may be a plus sign. -/
def hexNumber? (count : Nat) (s : List Char) : Option Nat :=
  let ds := s.take count
  if ds.length < count then none else ofHex? (dropPlus ds)

def isOctal (c : Char) : Bool := '0' ≤ c && c ≤ '7'

/-- Whether a number is one half of a pair that stands for a character. -/
def isSurrogate (n : Nat) : Bool := 0xD800 ≤ n && n ≤ 0xDFFF

/-- The character that two halves stand for. -/
def joinSurrogates? (high low : Nat) : Option Char :=
  if 0xD800 ≤ high && high ≤ 0xDBFF && 0xDC00 ≤ low && low ≤ 0xDFFF then
    some (Char.ofNat (0x10000 + (high - 0xD800) * 0x400 + (low - 0xDC00)))
  else none

/-- What a string stands for. `half` is the first half of a pair, of which the second must follow. A
backslash in front of a character that needs none stays. -/
def unescape (half : Option Nat) (s : List Char) : Option (List Char) :=
  match s with
  | [] => if half.isNone then some [] else none
  | '\\' :: 'u' :: r => do
    let n ← hexNumber? 4 r
    match half, isSurrogate n with
    | none, false => return Char.ofNat n :: (← unescape none (r.drop 4))
    | none, true => unescape (some n) (r.drop 4)
    | some h, true => return (← joinSurrogates? h n) :: (← unescape none (r.drop 4))
    | some _, false => none
  | c :: r =>
    if half.isSome then none
    else if c ≠ '\\' then do return c :: (← unescape none r)
    else
      match r with
      | [] => none
      | d :: t =>
        if d = 'x' then do
          return Char.ofNat (← hexNumber? 2 t) :: (← unescape none (t.drop 2))
        else if isOctal d then
          let more := (t.take 2).takeWhile isOctal
          let n := (d :: more).foldl (fun n d => 8 * n + digitValue d) 0
          if n < 256 then do return Char.ofNat n :: (← unescape none (t.drop more.length)) else none
        else
          match escaped? d with
          | some e => do return e :: (← unescape none t)
          | none => do return '\\' :: d :: (← unescape none t)
termination_by s.length
decreasing_by all_goals (simp only [List.length_cons, List.length_drop]; omega)

def scanString (quote : Char) (s : List Char) : Option (List Char × List Char) := do
  let (raw, r) ← rawString quote false s
  return (← unescape none raw, r)

/-- The longest run of digits and underscores, and the text behind it. -/
def scanDigits (s : List Char) : List Char × List Char :=
  let part (c : Char) : Bool := c.isDigit || c == '_'
  (s.takeWhile part, s.dropWhile part)

def plainDigits (s : List Char) : List Char := s.filter (· ≠ '_')

def endsInDigit (s : List Char) : Bool := s.getLast? ≠ some '_'

def base? : List Char → Option (Nat × List Char)
  | '0' :: c :: r =>
    if c = 'b' || c = 'B' then some (2, r)
    else if c = 'o' || c = 'O' then some (8, r)
    else if c = 'x' || c = 'X' then some (16, r)
    else none
  | _ => none

/-- A whole number, which has at most 128 bits. -/
def wholeToken (base : Nat) (ds : List Char) : Option Token := do
  let values ← (plainDigits ds).mapM hexValue?
  let n := values.foldl (fun n d => base * n + d) 0
  if endsInDigit ds && !values.isEmpty && values.all (· < base) && n < pow2 128 then
    some (.whole n)
  else none

def scanExponent (s : List Char) : Option (List Char × Int × List Char) :=
  match s with
  | [] => some ([], 0, [])
  | c :: r =>
    if c ≠ 'e' && c ≠ 'E' then some ([], 0, s)
    else
      let (sign, r) :=
        match r with
        | '-' :: r => ((-1 : Int), r)
        | '+' :: r => (1, r)
        | r => (1, r)
      let (ds, t) := scanDigits r
      if (plainDigits ds).isEmpty then none else some (ds, sign * ofDigits (plainDigits ds), t)

/-- The places behind a decimal point, if one is there. A point in front of a name is none. -/
def scanPlaces : List Char → Option (List Char × List Char)
  | '.' :: r => if r.head?.any isNameHead then none else some (scanDigits r)
  | _ => none

/-- A number, and the text behind it. Behind a point a number is a place in a list, which is written
in digits alone. -/
def scanNumber (place : Bool) (s : List Char) : Option (Token × List Char) := do
  let (whole, r) := scanDigits s
  if place then return (← wholeToken 10 whole, r)
  match base? s with
  | some (base, r) =>
    let part (c : Char) : Bool := c.isDigit || c == '_' || base == 16 && (hexValue? c).isSome
    return (← wholeToken base (r.takeWhile part), r.dropWhile part)
  | none =>
    let places := scanPlaces r
    let r := (places.map (·.2)).getD r
    let (ds, exponent, t) ← scanExponent r
    if places.isNone && t.length = r.length then return (← wholeToken 10 whole, r)
    let places := (places.map (·.1)).getD []
    if !endsInDigit places && ds.isEmpty || !endsInDigit ds then none
    let digits := plainDigits (whole ++ places)
    return (.decimal (ofDigits digits) (exponent - (plainDigits places).length), t)

/-! ## Inside of markers -/

def longOperators : List (List Char) :=
  [['/', '/'], ['*', '*'], ['=', '='], ['!', '='], ['>', '='], ['<', '=']]

def shortOperators : List Char :=
  ['+', '-', '*', '/', '%', '.', ',', ':', '~', '|', '=', '<', '>', '(', ')', '[', ']', '{', '}']

def scanOperator (s : List Char) : Option (List Char × List Char) :=
  match longOperators.find? (startsWith s) with
  | some op => some (op, s.drop 2)
  | none =>
    match s with
    | c :: r => if shortOperators.contains c then some ([c], r) else none
    | [] => none

def bracketDepth (depth : Nat) (op : List Char) : Nat :=
  if op = ['('] ∨ op = ['['] ∨ op = ['{'] then depth + 1
  else if op = [')'] ∨ op = [']'] ∨ op = ['}'] then depth - 1
  else depth

def scanToken (place : Bool) (s : List Char) : Option (Token × List Char) :=
  match s with
  | [] => none
  | c :: r =>
    if c = '"' ∨ c = '\'' then (scanString c r).map fun (t, rest) => (.str (String.ofList t), rest)
    else if c.isDigit then scanNumber place s
    else if isNameHead c then
      some (.name (String.ofList (s.takeWhile isNameTail)), s.dropWhile isNameTail)
    else (scanOperator s).map fun (op, rest) => (.op (String.ofList op), rest)

def closing? (marker s : List Char) : Option (Trimming × List Char) :=
  match after? marker s with
  | some r => some (.line, r)
  | none =>
    match takeSign s with
    | (.line, _) => none
    | (sign, t) => (after? marker t).map fun r => (sign, r)

/-- The tokens up to a closing marker outside of brackets, the marker's sign, and the text behind
it. `place` tells whether a point stands in front. -/
def scanInside (marker : List Char) :
    (fuel depth : Nat) → (place : Bool) → List Char → Option (List Token × Trimming × List Char)
  | 0, _, _, _ => none
  | fuel + 1, depth, place, s =>
    let s := s.dropWhile fun c => isAsciiBlank c
    match if depth = 0 then closing? marker s else none with
    | some (sign, r) => some ([], sign, r)
    | none => do
      let (t, r) ← scanToken place s
      let depth :=
        match t with
        | .op o => bracketDepth depth o.toList
        | _ => depth
      let (ts, sign, r) ← scanInside marker fuel depth (t = .op ".") r
      return (t :: ts, sign, r)

/-! ## Raw text -/

/-- Behind a tag that holds one word, if one is at the start: the sign at its end and the text
behind it. -/
def wordTag? (word s : List Char) : Option (Trimming × List Char) := do
  let r ← after? word (s.dropWhile isAsciiBlank)
  let (sign, r) := takeSign (r.dropWhile isAsciiBlank)
  let r ← after? ['%', '}'] r
  return (sign, r)

/-- Raw text up to its closing tag: the text, the signs on both sides of the tag, and what follows.
-/
def scanRaw : (fuel : Nat) → List Char → Option (List Char × Trimming × Trimming × List Char)
  | 0, _ => none
  | fuel + 1, s => do
    let (a, b) ← cut? ['{', '%'] s
    let (sign, r) := takeSign b
    match wordTag? "endraw".toList r with
    | some (behind, rest) => return (a, sign, behind, rest)
    | none =>
      let (t, x, y, rest) ← scanRaw fuel b
      return (a ++ ['{', '%'] ++ t, x, y, rest)

/-! ## Outside of markers -/

inductive Marker where
  | output
  | tag
  | comment
  deriving DecidableEq, Repr

/-- The text in front of the first opening marker, the marker, and the text behind it. -/
def opening? : List Char → Option (List Char × Marker × List Char)
  | '{' :: '{' :: r => some ([], .output, r)
  | '{' :: '%' :: r => some ([], .tag, r)
  | '{' :: '#' :: r => some ([], .comment, r)
  | [] => none
  | c :: r => (opening? r).map fun (a, m, b) => (c :: a, m, b)

def textTokens (s : List Char) : List Token := if s.isEmpty then [] else [.text (String.ofList s)]

/-- The text in front of a marker without the blanks that the marker takes away; `before` is
everything in front of it. -/
def leadText (m : Marker) (sign : Trimming) (before lead : List Char) : List Char :=
  match sign with
  | .all => trimEnd lead
  | .keep => lead
  | .line => if m ≠ .output ∧ endsInIndent before then dropIndent lead else lead

/-- The text behind a tag or comment without the blanks that its end takes away. -/
def tailText (sign : Trimming) (s : List Char) : List Char :=
  match sign with
  | .all => trimStart s
  | .keep => s
  | .line => dropLineEnd s

/-- The tokens of the end `s` of a stencil. -/
def scanFrom (source : List Char) : (fuel : Nat) → List Char → Option (List Token)
  | 0, _ => none
  | fuel + 1, s =>
    match opening? s with
    | none => some (textTokens s)
    | some (lead, m, r) => do
      let before := source.take (source.length - s.length + lead.length)
      let (sign, r) := takeSign r
      let texts := textTokens (leadText m sign before lead)
      match m with
      | .comment =>
        let (body, r) ← cut? ['#', '}'] r
        let last := (takeSign (body.reverse.take 1)).1
        let ts ← scanFrom source fuel (tailText last r)
        return texts ++ ts
      | .output =>
        let (inner, last, r) ← scanInside ['}', '}'] (r.length + 1) 0 false r
        let ts ← scanFrom source fuel (if last = .all then trimStart r else r)
        return texts ++ [.openOutput] ++ inner ++ [.closeOutput] ++ ts
      | .tag =>
        match wordTag? "raw".toList r with
        | some (first, r) =>
          let (raw, sign, last, r) ← scanRaw (r.length + 1) r
          let raw := tailText first raw
          let raw := match sign with
            | .all => trimEnd raw
            | .keep => raw
            | .line => dropIndent raw
          let ts ← scanFrom source fuel (tailText last r)
          return texts ++ textTokens raw ++ ts
        | none =>
          let (inner, last, r) ← scanInside ['%', '}'] (r.length + 1) 0 false r
          let ts ← scanFrom source fuel (tailText last r)
          return texts ++ [.openTag] ++ inner ++ [.closeTag] ++ ts

/-- The tokens of a stencil; `none` if a marker or a string in it is left open. -/
def scan (s : List Char) : Option (List Token) := scanFrom s (s.length + 1) s

end Sigil.Stencil
