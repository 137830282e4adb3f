import Sigil.Proofs.Template.Standing
import Sigil.Proofs.Template.Surface

/-!
# Start tags

A start tag as its author sees it: a name and items, each behind blanks. An item is a name, a name
with a quoted value, a directive or a comment; a quoted value holds directives or none. `Item.next`
says where the scan stands behind an item, or that the item is not read as what it is: a directive
or a comment ends the tag for the scan, and what follows is markup.
-/

namespace Sigil.Template

open Text Cursor

/-! ## Items -/

/-- Blanks, at least one. -/
structure Gap where
  chars : List Char
  blanks : Blanks chars
  ne_nil : chars ≠ []

structure AttributeWord where
  chars : List Char
  inside : ∀ x ∈ chars, endsAttributeName x = false
  ne_nil : chars ≠ []

/-- Text without `@`s and quotes. -/
structure PlainText where
  chars : List Char
  plain : Plain chars

/-- A name that a directive writes. -/
structure DirectiveWord where
  chars : List Char
  identifier : Identifier chars

/-- Text that is no comment's end. -/
structure CommentText where
  chars : List Char
  inside : ¬ commentEnd <:+: chars

/-- Text and a directive behind it. -/
structure Piece extends PlainText where
  ends : ∀ x ∈ chars.getLast?, x.isAlphanum = false
  word : DirectiveWord

/-- A value with at least one directive. -/
structure DynamicValue where
  pieces : List Piece
  ne_nil : pieces ≠ []
  tail : PlainText

def DirectiveWord.written (w : DirectiveWord) : List Char := '@' :: inParens [] w.chars []

def Piece.written (p : Piece) : List Char := p.chars ++ p.word.written

def DynamicValue.chars (v : DynamicValue) : List Char :=
  v.pieces.flatMap Piece.written ++ v.tail.chars

/-- What may stand in a start tag behind blanks. -/
inductive Item where
  | bare (gap : Gap) (name : AttributeWord)
  | plain (gap : Gap) (name : AttributeWord) (value : PlainText)
  | dynamic (gap : Gap) (name : AttributeWord) (value : DynamicValue)
  | directive (gap : Gap) (word : DirectiveWord)
  | comment (gap : Gap) (text : CommentText)

namespace Item

/-- The blanks in front of a quoted value, its name and its opening quote. -/
def opening (gap : Gap) (name : AttributeWord) : List Char :=
  gap.chars ++ name.chars ++ ['=', '"']

def chars : Item → List Char
  | bare gap name => gap.chars ++ name.chars
  | plain gap name value => opening gap name ++ (value.chars ++ ['"'])
  | dynamic gap name value => opening gap name ++ (value.chars ++ ['"'])
  | directive gap word => gap.chars ++ word.written
  | comment gap text => gap.chars ++ '@' :: '*' :: (text.chars ++ commentEnd)

/-- The attribute that an item at an offset stands for, if its value holds a directive. -/
def attribute? (offset : Nat) : Item → Option (String × Nat)
  | dynamic _ name _ => some (String.ofList name.chars, offset)
  | _ => none

end Item

/-- The items, and the end of the tag. -/
def itemsText (items : List Item) : List Char := items.flatMap Item.chars ++ ['>']

/-- The attributes with a directive in their value, from an offset on: their names and where they
start. -/
def itemAttributes (offset : Nat) : List Item → List (String × Nat)
  | [] => []
  | i :: is => (i.attribute? offset).toList ++ itemAttributes (offset + byteLength i.chars) is

structure StartTag where
  initial : Char
  alpha : initial.isAlpha = true
  /-- The name behind its first letter. -/
  name : List Char
  inside : ∀ x ∈ name, endsAttributeName x = false
  items : List Item

namespace StartTag

def text (t : StartTag) : List Char := '<' :: t.initial :: (t.name ++ itemsText t.items)

/-- The attributes with a directive in their value: their names and where they start. -/
def attributes (t : StartTag) : List (String × Nat) :=
  itemAttributes (byteLength ('<' :: t.initial :: t.name)) t.items

end StartTag

/-! ## Where an item leads -/

/-- Where the scan stands in front of an item. -/
inductive Footing where
  | tag
  | markup
  /-- In a quoted value, which may hold a directive already. -/
  | value (dynamic : Bool)
  deriving DecidableEq

/-- The footing in a zone behind a quote. -/
def Zone.footing : Zone → Footing
  | .tag => .tag
  | .value _ => .value false
  | _ => .markup

/-- The footing behind an item that the scan reads as what it is, or passes as text. -/
def Item.next (f : Footing) : Item → Option Footing
  | bare .. => some f
  | plain _ _ value =>
    match f with
    | .tag => some .tag
    | .markup => some (Zone.walk .markup (value.chars ++ ['"'])).footing
    | .value false => some (Zone.walk .tag (value.chars ++ ['"'])).footing
    | .value true => none
  | dynamic .. => if f = .tag then some .tag else none
  | directive .. =>
    match f with
    | .value _ => some (.value true)
    | _ => some .markup
  | comment .. =>
    match f with
    | .value _ => none
    | _ => some .markup

/-- Whether the scan reads every item with a directive in its value as an attribute. -/
def fits (f : Footing) (items : List Item) : Bool := (items.foldlM Item.next f).isSome

end Sigil.Template
