import Sigil.Yaml.Scalar
import Sigil.Yaml.Tag

/-!
# YAML tokens

`scan` cuts a text into tokens. Indentation shows in them: a block collection starts and ends with
a token of its own. That a key starts somewhere shows only at the colon behind it, so the scanner
keeps in mind where a key may have started, one place for each open flow collection; a key stands on
one line and has at most `keyLength` characters.
-/

namespace Sigil.Yaml

inductive Style where
  | plain
  | quoted
  | literal
  | folded
  deriving DecidableEq, Repr

inductive Token where
  | directive (d : Directive)
  | documentStart
  | documentEnd
  | blockSeqStart
  | blockMapStart
  | blockEnd
  | flowSeqStart
  | flowSeqEnd
  | flowMapStart
  | flowMapEnd
  /-- The sign of an item in a block. -/
  | item
  /-- The comma of a flow collection. -/
  | comma
  | key
  | value
  | alias (name : String)
  | anchor (name : String)
  | tag (t : TagName)
  | scalar (style : Style) (text : String)
  deriving DecidableEq, Repr

/-- A place where a key may have started. -/
structure KeyPlace where
  /-- Whether nothing but a key may start there. -/
  required : Bool
  line : Nat
  column : Nat
  /-- The number of tokens in front of it. -/
  index : Nat

structure Scanner where
  cursor : Cursor
  tokens : Array Token := #[]
  /-- The column of the innermost block collection. -/
  indent : Int := -1
  /-- The columns of the block collections around it, from the inside. -/
  outerIndents : List Int := []
  /-- The place of a key in the innermost flow collection, or else in the block. -/
  place : Option KeyPlace := none
  /-- The places of keys around the innermost flow collection, from the inside. -/
  outerPlaces : List (Option KeyPlace) := []
  /-- Whether a key may start here. -/
  keyAllowed : Bool := true

/-- The number of characters that a key may have. -/
def keyLength : Nat := 1024

namespace Scanner

def inFlow (s : Scanner) : Bool := !s.outerPlaces.isEmpty

def rest (s : Scanner) : List Char := s.cursor.rest

def skip (s : Scanner) (n : Nat) : Scanner := { s with cursor := s.cursor.skip n }

def push (s : Scanner) (t : Token) : Scanner := { s with tokens := s.tokens.push t }

/-- A place is out of date once its line is left or the key would be too long. A required key must
not get lost. -/
def refresh (s : Scanner) (p : Option KeyPlace) : Option (Option KeyPlace) :=
  match p with
  | none => some none
  | some k =>
    if k.line < s.cursor.line || k.column + keyLength < s.cursor.column then
      if k.required then none else some none
    else some (some k)

def refreshAll (s : Scanner) : Option Scanner := do
  let place ← s.refresh s.place
  let outer ← s.outerPlaces.mapM s.refresh
  return { s with place := place, outerPlaces := outer }

/-- The place forgotten, unless a key is required there. -/
def dropPlace (s : Scanner) : Option Scanner :=
  if s.place.any KeyPlace.required then none else some { s with place := none }

/-- The place remembered, if a key may start here. -/
def markPlace (s : Scanner) : Option Scanner :=
  if s.keyAllowed then do
    let s ← s.dropPlace
    let required := !s.inFlow && s.indent == (s.cursor.column : Int)
    let k : KeyPlace := ⟨required, s.cursor.line, s.cursor.column, s.tokens.size⟩
    return { s with place := some k }
  else some s

/-- A block collection opened in a column behind the indentation, in front of a token. -/
def openBlock (s : Scanner) (column : Nat) (t : Token) (index : Nat) : Scanner :=
  if !s.inFlow && s.indent < (column : Int) then
    { s with
      indent := column
      outerIndents := s.indent :: s.outerIndents
      tokens := s.tokens.insertIdxIfInBounds index t }
  else s

/-- Block collections behind a column closed. -/
def closeBlocks (s : Scanner) (column : Int) : Scanner :=
  if s.inFlow then s
  else
    let closed := (s.indent :: s.outerIndents).takeWhile (column < ·)
    let kept := (s.indent :: s.outerIndents).dropWhile (column < ·)
    { s with
      tokens := s.tokens ++ (Array.replicate closed.length Token.blockEnd)
      indent := kept.headD (-1)
      outerIndents := kept.tail }

/-! ## Blanks -/

/-- Past blanks, line ends and comments. A tab may only stand where no key can start, or in a flow
collection. Outside of those a key may start behind a line end. -/
def pastBlanks (flow : Bool) :
    (s : List Char) → (line column : Nat) → (keyAllowed comment : Bool) → Cursor × Bool
  | [], line, column, keyAllowed, _ => (⟨[], line, column⟩, keyAllowed)
  | c :: r, line, column, keyAllowed, comment =>
    if isBreak c then pastBlanks flow r (line + 1) 0 (keyAllowed || !flow) false
    else if comment || c = '#' then pastBlanks flow r line (column + 1) keyAllowed true
    else if c = ' ' || c = '\t' && (flow || !keyAllowed) then
      pastBlanks flow r line (column + 1) keyAllowed false
    else (⟨c :: r, line, column⟩, keyAllowed)

def pastOrderMark (i : Cursor) : Cursor :=
  if i.line = 0 && i.column = 0 && i.rest.head? = some '\ufeff' then i.skip 1 else i

def toToken (s : Scanner) : Scanner :=
  let i := pastOrderMark s.cursor
  let (i, keyAllowed) := pastBlanks s.inFlow i.rest i.line i.column s.keyAllowed false
  { s with cursor := i, keyAllowed := keyAllowed }

/-! ## Single tokens -/

def isSign (c : Char) (s : List Char) : Bool :=
  match s with
  | d :: r => c = d && endsWord r
  | [] => false

/-- The characters that a plain scalar does not start with, unless what follows makes up for it. -/
def startSigns : List Char :=
  ['-', '?', ':', ',', '[', ']', '{', '}', '#', '&', '*', '!', '|', '>', '\'', '"', '%', '@',
    '\x60']

def startsPlain (flow : Bool) (s : List Char) : Bool :=
  match s with
  | [] => false
  | c :: r =>
    !(isSpace c || startSigns.contains c) || c = '-' && !r.head?.any isSpace ||
      !flow && (c = '?' || c = ':') && !endsWord r

/-- A mark at the start of a line, or a directive: all block collections end in front of it. -/
def outermost (s : Scanner) : Option Scanner := do
  return { ← (s.closeBlocks (-1)).dropPlace with keyAllowed := false }

def openFlow (s : Scanner) (t : Token) : Option Scanner := do
  let s ← s.markPlace
  return { (s.push t).skip 1 with
    place := none, outerPlaces := s.place :: s.outerPlaces, keyAllowed := true }

def closeFlow (s : Scanner) (t : Token) : Option Scanner := do
  let s ← s.dropPlace
  return { (s.push t).skip 1 with
    place := s.outerPlaces.headD none, outerPlaces := s.outerPlaces.tail, keyAllowed := false }

/-- A sign that must stand where a key may start, unless in a flow collection: of an item, or of a
key or a value that opens a map. -/
def blockSign (s : Scanner) (start : Token) : Option Scanner :=
  if s.inFlow then some s
  else if s.keyAllowed then some (s.openBlock s.cursor.column start s.tokens.size)
  else none

/-- The sign of a value. A key that it belongs to starts at the remembered place. -/
def scanValue (s : Scanner) : Option Scanner :=
  match s.place with
  | some k =>
    let tokens := s.tokens.insertIdxIfInBounds k.index .key
    let s := { s with tokens := tokens, place := none, keyAllowed := false }
    some (((s.openBlock k.column .blockMapStart k.index).push .value).skip 1)
  | none => do
    let s ← s.blockSign .blockMapStart
    return { (s.push .value).skip 1 with keyAllowed := !s.inFlow }

/-- A token that a key may start with, read by a function on the place where it starts. -/
def scanStart (s : Scanner) (r : Cursor → Option (Token × Cursor)) : Option Scanner := do
  let s ← s.markPlace
  let (t, i) ← r s.cursor
  return { s.push t with cursor := i, keyAllowed := false }

def scalarToken (style : Style) (x : Read) : Token × Cursor :=
  (.scalar style (String.ofList x.text), x.next)

def scanQuoted (s : Scanner) (double : Bool) : Option Scanner :=
  s.scanStart fun i =>
    (readQuoted double (i.rest.drop 1) i.line (i.column + 1) (.blanks []) []).map
      (scalarToken .quoted)

def scanBlockScalar (s : Scanner) (style : Style) : Option Scanner := do
  let s ← s.dropPlace
  let (t, i) ← (readBlock (style = .folded) s.indent (s.cursor.skip 1)).map (scalarToken style)
  return { s.push t with cursor := i, keyAllowed := true }

def scanPlain (s : Scanner) : Option Scanner := do
  let s ← s.markPlace
  let i := s.cursor
  let x ← readPlain s.inFlow (s.indent + 1).toNat i.rest i.line i.column (.blanks []) []
  let (t, i) := scalarToken .plain x
  return { s.push t with cursor := i, keyAllowed := x.crossed }

def scanToken (s : Scanner) : Option Scanner :=
  match s.rest with
  | [] => none
  | c :: r =>
    if s.cursor.column = 0 && c = '%' then do
      let s ← s.outermost
      let (d, i) ← readDirective (s.cursor.skip 1)
      return { s.push (.directive d) with cursor := i }
    else if s.cursor.column = 0 && isMark s.rest then do
      let s ← s.outermost
      return (s.push (if c = '-' then .documentStart else .documentEnd)).skip 3
    else if c = '[' then s.openFlow .flowSeqStart
    else if c = '{' then s.openFlow .flowMapStart
    else if c = ']' then s.closeFlow .flowSeqEnd
    else if c = '}' then s.closeFlow .flowMapEnd
    else if c = ',' then do
      return { ((← s.dropPlace).push .comma).skip 1 with keyAllowed := true }
    else if isSign '-' s.rest then do
      let s ← (← s.blockSign .blockSeqStart).dropPlace
      return { (s.push .item).skip 1 with keyAllowed := true }
    else if c = '?' && (s.inFlow || endsWord r) then do
      let s ← (← s.blockSign .blockMapStart).dropPlace
      return { (s.push .key).skip 1 with keyAllowed := !s.inFlow }
    else if c = ':' && (s.inFlow || endsWord r) then s.scanValue
    else if c = '*' then
      s.scanStart fun i => (readAnchor (i.skip 1)).map fun (name, i) => (.alias name, i)
    else if c = '&' then
      s.scanStart fun i => (readAnchor (i.skip 1)).map fun (name, i) => (.anchor name, i)
    else if c = '!' then
      s.scanStart fun i => (readTag s.inFlow i).map fun (t, i) => (.tag t, i)
    else if c = '|' && !s.inFlow then s.scanBlockScalar .literal
    else if c = '>' && !s.inFlow then s.scanBlockScalar .folded
    else if c = '\'' then s.scanQuoted false
    else if c = '"' then s.scanQuoted true
    else if startsPlain s.inFlow s.rest then s.scanPlain
    else none

/-- All tokens up to the end of the text. Every token takes a character, so there are at most as
many steps as characters. -/
def scanAll : (fuel : Nat) → Scanner → Option Scanner
  | 0, _ => none
  | fuel + 1, s => do
    let s ← s.toToken.refreshAll
    let s := s.closeBlocks s.cursor.column
    if s.rest.isEmpty then s.outermost else scanAll fuel (← s.scanToken)

end Scanner

def scan (text : List Char) : Option (List Token) :=
  let s := lineFeeds text
  if text.all isAllowed then
    (Scanner.scanAll (s.length + 1) { cursor := { rest := s } }).map fun s => s.tokens.toList
  else none

end Sigil.Yaml
