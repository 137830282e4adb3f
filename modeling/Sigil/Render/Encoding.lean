import Sigil.Json.Basic

/-!
# Encoded text

Text that can be written as it is, and the encoders that make it. `encodeEntities` replaces the five
characters that mean something in markup by their entities; nothing else changes.
-/

namespace Sigil.Render

/-- The entity of a character that means something in markup. -/
def entity? (c : Char) : Option (List Char) :=
  if c = '&' then some ['&', 'a', 'm', 'p', ';']
  else if c = '<' then some ['&', 'l', 't', ';']
  else if c = '>' then some ['&', 'g', 't', ';']
  else if c = '"' then some ['&', 'q', 'u', 'o', 't', ';']
  else if c = '\'' then some ['&', '#', 'x', '2', '7', ';']
  else none

/-- A character as it is written inside markup. -/
def encodeChar (c : Char) : List Char := (entity? c).getD [c]

def encodeEntities (s : List Char) : List Char := s.flatMap encodeChar

/-- Text that needs no further encoding. -/
inductive Encoded where
  | html (text : String)
  | raw (text : String)
  deriving DecidableEq, Repr

namespace Encoded

def text : Encoded → String
  | html s => s
  | raw s => s

def ofText (s : String) : Encoded := html (String.ofList (encodeEntities s.toList))

/-- An object with one member, whose key tells the kind. -/
def json : Encoded → Json
  | html s => .ofMembers [("Html", .str s)]
  | raw s => .ofMembers [("Raw", .str s)]

end Encoded

/-- How the texts of a template's values are encoded. A host may bring an encoder of its own; one
that panics on a text leaves the message of its panic. -/
structure Encoder where
  encode : String → Except String Encoded

namespace Encoder

def html : Encoder := ⟨fun s => .ok (.ofText s)⟩

/-- The encoder that leaves texts as they are. -/
def raw : Encoder := ⟨fun s => .ok (.raw s)⟩

end Encoder

inductive Encoding where
  | html
  | raw
  deriving DecidableEq, Repr

def Encoding.encoder : Encoding → Encoder
  | html => .html
  | raw => .raw

@[simp] theorem encodeEntities_nil : encodeEntities [] = [] := rfl

@[simp] theorem encodeEntities_append (s t : List Char) :
    encodeEntities (s ++ t) = encodeEntities s ++ encodeEntities t := List.flatMap_append

theorem encodeChar_of_none {c : Char} (h : entity? c = none) : encodeChar c = [c] := by
  simp [encodeChar, h]

end Sigil.Render
