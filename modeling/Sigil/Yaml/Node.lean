import Sigil.Yaml.Token

/-!
# YAML nodes

A document as data. An alias is kept as the number of the anchor that it names; a document knows the
nodes behind its anchors. The functions on a document read a node as a value: an alias stands for
its node, and a tag says little. One that names the null type makes a plain scalar nothing, any
other one makes it something, and a local tag may stand for a word.
-/

namespace Sigil.Yaml

open Text

inductive Node where
  | scalar (style : Style) (tag : Option Tag) (text : String)
  | seq (tag : Option Tag) (items : List Node)
  | map (tag : Option Tag) (members : List (Node × Node))
  | alias (anchor : Nat)
  deriving Repr, Inhabited

def Node.empty (tag : Option Tag) : Node := .scalar .plain tag ""

structure Document where
  root : Node
  /-- The nodes behind the anchors, by number. -/
  anchored : List (Nat × Node) := []
  deriving Inhabited

def Document.empty : Document := { root := .empty none }

/-! ## Tags and words -/

def standardTag (name : String) : Tag := Utf8.encode ("tag:yaml.org,2002:" ++ name)

/-- The words for nothing. -/
def nullWords : List String := ["null", "Null", "NULL", "~"]

/-- Whether a text without quotes says nothing. -/
def isNullText (s : String) : Bool := s.isEmpty || nullWords.contains s

def localWord? (tag : Tag) : Option String :=
  match tag with
  | 0x21 :: r => (Utf8.decode r).toOption
  | _ => none

/-! ## Values -/

namespace Document

/-- The node that a node stands for. -/
def follow (d : Document) : Node → Node
  | .alias k => (d.anchored.lookup k).getD (.empty none)
  | n => n

def text? (d : Document) (n : Node) : Option String :=
  match d.follow n with
  | .scalar _ _ s => some s
  | _ => none

/-- The items of a list; no content is the empty list. -/
def items? (d : Document) (n : Node) : Option (List Node) :=
  match d.follow n with
  | .scalar .plain _ "" => some []
  | .seq _ xs => some xs
  | _ => none

def members? (d : Document) (n : Node) : Option (List (Node × Node)) :=
  match d.follow n with
  | .scalar .plain _ "" => some []
  | .map _ ms => some ms
  | _ => none

def texts? (d : Document) (n : Node) : Option (List String) := do (← d.items? n).mapM d.text?

/-- Whether a node says that there is no value; `none` if its tag says so and its text does not. -/
def isNothing? (d : Document) (n : Node) : Option Bool :=
  match d.follow n with
  | .scalar .plain none s => some (isNullText s)
  | .scalar .plain (some tag) s =>
    if tag ≠ standardTag "null" then some false
    else if nullWords.contains s then some true
    else none
  | _ => some false

/-- The value of a node, unless it says that there is none. -/
def option? {α : Type} (d : Document) (read : Node → Option α) (n : Node) : Option (Option α) := do
  if ← d.isNothing? n then return none else return some (← read n)

/-- The text of a scalar that may be a value of a standard type: without quotes, or in a literal
block under the type's tag. -/
def valueText? (d : Document) (type : String) (n : Node) : Option String :=
  match d.follow n with
  | .scalar .plain _ s => some s
  | .scalar .literal (some tag) s => if tag = standardTag type then some s else none
  | _ => none

def bool? (d : Document) (n : Node) : Option Bool := do
  let s ← d.valueText? "bool" n
  if ["true", "True", "TRUE"].contains s then some true
  else if ["false", "False", "FALSE"].contains s then some false
  else none

/-- A word: the text of a scalar, or a local tag in front of nothing. -/
def word? (d : Document) (n : Node) : Option String :=
  let written (tag : Option Tag) : Option String := tag.bind localWord?
  match d.follow n with
  | .scalar style tag s =>
    match written tag with
    | some w => if style = .plain && isNullText s then some w else none
    | none => some s
  | _ => none

end Document
end Sigil.Yaml
