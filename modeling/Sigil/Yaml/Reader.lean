import Sigil.Yaml.Node

/-!
# Reading YAML

`parse` reads a text that holds at most one document; a text without any is a document without
content. The readers here take tokens and build nodes. Every step takes a token or opens a node, so
a number of steps that is proportional to the number of tokens is enough.
-/

namespace Sigil.Yaml

open Text

structure Input where
  rest : List Token
  handles : List (List Char × Tag) := []
  /-- The anchors' names, the latest first, with their numbers. -/
  anchors : List (String × Nat) := []
  /-- The numbers of the anchors in the order of their nodes, the latest first. -/
  numbers : List Nat := []
  /-- The anchored nodes, by their places in that order. -/
  anchored : List (Nat × Node) := []

abbrev Reader := StateT Input Option

namespace Reader

def peek : Reader (Option Token) := return (← get).rest.head?

def advance : Reader Unit := modify fun i => { i with rest := i.rest.tail }

/-- The next token taken if it is this one. -/
def skip (t : Token) : Reader Bool := do
  if (← peek) = some t then
    advance
    return true
  else return false

def expect (t : Token) : Reader Unit := do if ← skip t then return () else failure

def isNext (ts : List Token) : Reader Bool := return (← peek).any ts.contains

/-! ## Anchors and tags -/

def anchorCount (i : Input) : Nat := (i.anchors.map (·.1)).eraseDups.length

/-- An anchor in front of a node that is yet to be read: its place among the anchored nodes. Its
number is how many other names there are already. -/
def openAnchor (name : String) : Reader Nat := do
  let i ← get
  let n := anchorCount i
  set { i with anchors := (name, n) :: i.anchors, numbers := n :: i.numbers }
  return i.numbers.length

def closeAnchor (place : Option Nat) (n : Node) : Reader Node := do
  match place with
  | some k => modify fun i => { i with anchored := (k, n) :: i.anchored }
  | none => pure ()
  return n

def anchor? : Reader (Option Nat) := do
  match ← peek with
  | some (.anchor name) =>
    advance
    return some (← openAnchor name)
  | _ => return none

def tag? : Reader (Option Tag) := do
  match ← peek with
  | some (.tag t) =>
    advance
    match t.resolve? (← get).handles with
    | some tag => return some tag
    | none => failure
  | _ => return none

def properties : Reader (Option Nat × Option Tag) := do
  match ← anchor? with
  | some place => return (some place, ← tag?)
  | none =>
    let tag ← tag?
    if tag.isSome then return (← anchor?, tag) else return (none, none)

end Reader

open Reader

/-- The tokens in front of which a member of a block map is without content. -/
def memberEnds : List Token := [.key, .value, .blockEnd]

/-! ## Nodes -/

mutual

/-- A node. In a block it may be a block collection, and with `hanging` also a list without
indentation. -/
def readNode : Nat → (block hanging : Bool) → Reader Node
  | 0, _, _ => failure
  | n + 1, block, hanging => do
    match ← peek with
    | some (.alias name) =>
      advance
      match (← get).anchors.lookup name with
      | some k => return .alias k
      | none => failure
    | _ =>
      let (place, tag) ← properties
      match ← peek with
      | some (.scalar style s) =>
        advance
        closeAnchor place (.scalar style tag s)
      | some .flowSeqStart =>
        advance
        closeAnchor place (.seq tag (← readFlowItems n true))
      | some .flowMapStart =>
        advance
        closeAnchor place (.map tag (← readFlowMembers n true))
      | next =>
        if hanging && next = some .item then
          closeAnchor place (.seq tag (← readItems n (.item :: memberEnds)))
        else if block && next = some .blockSeqStart then
          advance
          let xs ← readItems n [.item, .blockEnd]
          expect .blockEnd
          closeAnchor place (.seq tag xs)
        else if block && next = some .blockMapStart then
          advance
          closeAnchor place (.map tag (← readMembers n))
        else if place.isSome || tag.isSome then closeAnchor place (.empty tag)
        else failure

/-- A node, or no content in front of one of some tokens. -/
def readOptional : Nat → (block hanging : Bool) → (ends : List Token) → Reader Node
  | 0, _, _, _ => failure
  | n + 1, block, hanging, ends => do
    if ← isNext ends then return .empty none else readNode n block hanging

/-- The items of a list in a block; an item may be without content in front of some tokens. -/
def readItems : Nat → (ends : List Token) → Reader (List Node)
  | 0, _ => failure
  | n + 1, ends => do
    if ← skip .item then
      let x ← readOptional n true false ends
      return x :: (← readItems n ends)
    else return []

def readMembers : Nat → Reader (List (Node × Node))
  | 0 => failure
  | n + 1 => do
    if ← skip .blockEnd then return []
    else
      expect .key
      let k ← readOptional n true true memberEnds
      let v ← if ← skip .value then readOptional n true true memberEnds else pure (.empty none)
      return (k, v) :: (← readMembers n)

/-- The items of a flow list, with its end; an item with a key is a map of one member. -/
def readFlowItems : Nat → (first : Bool) → Reader (List Node)
  | 0, _ => failure
  | n + 1, first => do
    if ← skip .flowSeqEnd then return []
    else
      if !first then expect .comma
      if ← skip .flowSeqEnd then return []
      else if ← skip .key then
        let k ←
          if ← isNext [.value, .comma, .flowSeqEnd] then do
            -- The token behind a key without content goes with the key.
            advance
            pure (.empty none)
          else readNode n false false
        let v ←
          if ← skip .value then readOptional n false false [.comma, .flowSeqEnd]
          else pure (.empty none)
        return .map none [(k, v)] :: (← readFlowItems n false)
      else
        let x ← readNode n false false
        return x :: (← readFlowItems n false)

/-- The members of a flow map, with its end. A key without a sign of its own is without value. -/
def readFlowMembers : Nat → (first : Bool) → Reader (List (Node × Node))
  | 0, _ => failure
  | n + 1, first => do
    if ← skip .flowMapEnd then return []
    else
      if !first then expect .comma
      if ← skip .flowMapEnd then return []
      else if ← skip .key then
        let k ← readOptional n false false [.value, .comma, .flowMapEnd]
        let v ←
          if ← skip .value then readOptional n false false [.comma, .flowMapEnd]
          else pure (.empty none)
        return (k, v) :: (← readFlowMembers n false)
      else
        let k ← readNode n false false
        return (k, .empty none) :: (← readFlowMembers n false)

end

/-! ## Documents -/

def takeDirectives : List Token → List Directive × List Token
  | .directive d :: r => (d :: (takeDirectives r).1, (takeDirectives r).2)
  | r => ([], r)

/-- The document's node, behind its directives. A document that starts with a mark may be empty. -/
def readRoot (steps : Nat) (directed : Bool) : Reader Node := do
  match (← get).rest with
  | [] => if directed then failure else return .empty none
  | .documentStart :: r =>
    modify fun i => { i with rest := r }
    match r.head? with
    | none | some (.directive _) | some .documentStart | some .documentEnd => return .empty none
    | _ => readNode steps true false
  | _ => if directed then failure else readNode steps true false

/-- The anchored nodes by number. Of two nodes with one number the later one counts. -/
def Input.byNumber (i : Input) : List (Nat × Node) :=
  let places := i.numbers.reverse.zipIdx.reverse
  places.filterMap fun (number, place) => (i.anchored.lookup place).map fun n => (number, n)

/-- The document of some tokens, which must be the only one. -/
def Document.ofTokens? (ts : List Token) : Option Document := do
  let (directives, rest) := takeDirectives ts
  let handles ← declaredHandles? false directives
  let (root, i) ← (readRoot (4 * ts.length + 4) !directives.isEmpty).run { rest, handles }
  if i.rest.all (· = .documentEnd) then some { root, anchored := i.byNumber } else none

def parse (text : String) : Option Document := do Document.ofTokens? (← scan text.toList)

end Sigil.Yaml
