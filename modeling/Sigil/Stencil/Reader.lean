import Sigil.Stencil.Token
import Sigil.Stencil.Tree

/-!
# Reading a stencil

`read` turns the tokens of a stencil into its parts. Operators bind from `or`, the loosest, over
`and`, `not`, comparisons, sums, `~`, products and `**` to signs; what follows an operand (members,
indexes, calls, filters, tests) binds tightest. Every step of the reader takes a token or goes one
level of binding down, so a number of steps that is proportional to the number of tokens is enough.
-/

namespace Sigil.Stencil

/-- What is left of the tokens, and what the reader keeps in mind. -/
structure Reading where
  rest : List Token
  /-- How deep the current expression or tag is nested. -/
  depth : Nat := 0
  /-- The names of the blocks so far. -/
  blocks : List String := []
  inRoutine : Bool := false

abbrev Reader := StateT Reading Option

def depthLimit : Nat := 150

namespace Reader

def peek : Reader (Option Token) := return (← get).rest.head?

def next : Reader Token := do
  match (← get).rest with
  | t :: r =>
    modify fun s => { s with rest := r }
    return t
  | [] => failure

/-- The next token taken if it is this one. -/
def skip (t : Token) : Reader Bool := do
  if (← peek) = some t then
    let _ ← next
    return true
  else return false

def expect (t : Token) : Reader Unit := do if ← skip t then return () else failure

def isNext (t : Token) : Reader Bool := return (← peek) = some t

def name : Reader String := do
  match ← next with
  | .name s => return s
  | _ => failure

def nested {α : Type} (r : Reader α) : Reader α := do
  let depth := (← get).depth + 1
  if depthLimit < depth then failure
  modify fun s => { s with depth := depth }
  let x ← r
  modify fun s => { s with depth := depth - 1 }
  return x

end Reader

open Reader

/-! ## Operators -/

def orLevel : Nat := 0

def andLevel : Nat := 1

def notLevel : Nat := 2

def comparisonLevel : Nat := 3

/-- The level below all operators of two operands. -/
def unaryLevel : Nat := 8

def operatorsAt : Nat → List (Token × BinaryOp)
  | 4 => [(.op "+", .add), (.op "-", .sub)]
  | 5 => [(.op "~", .concat)]
  | 6 => [(.op "*", .mul), (.op "/", .div), (.op "//", .floorDiv), (.op "%", .mod)]
  | 7 => [(.op "**", .pow)]
  | _ => []

def comparisons : List (List Token × Comparison) :=
  [([.op "=="], .eq), ([.op "!="], .ne), ([.op "<"], .lt), ([.op "<="], .le), ([.op ">"], .gt),
    ([.op ">="], .ge), ([.name "in"], .contained), ([.name "not", .name "in"], .notContained)]

/-- The operator of two operands that comes next at a level, taken. -/
def operator? (level : Nat) : Reader (Option (Expr → Expr → Expr)) := do
  if level = orLevel then return if ← skip (.name "or") then some .or else none
  else if level = andLevel then return if ← skip (.name "and") then some .and else none
  else
    match ← peek with
    | some t =>
      match (operatorsAt level).lookup t with
      | some op =>
        let _ ← next
        return some (.binary op)
      | none => return none
    | none => return none

def comparison? : Reader (Option Comparison) := do
  let ts := (← get).rest
  match comparisons.find? fun (spelling, _) => spelling.isPrefixOf ts with
  | some (spelling, op) =>
    modify fun s => { s with rest := s.rest.drop spelling.length }
    return some op
  | none => return none

/-- The words that end the operand of a test without brackets. -/
def connectives : List String := ["and", "or", "not", "else", "is", "in", "if"]

def startsOperand : Option Token → Bool
  | some (.name s) => !connectives.contains s
  | some (.str _) => true
  | some (.whole _) => true
  | some (.decimal ..) => true
  | some (.op o) => o == "+" || o == "-" || o == "[" || o == "\x7b"
  | _ => false

def wordExpr : String → Expr
  | "true" | "True" => .bool true
  | "false" | "False" => .bool false
  | "none" | "None" => .null
  | s => .var s

/-! ## Expressions -/

mutual

/-- An expression with its alternatives. -/
def readExpr : Nat → Reader Expr
  | 0 => failure
  | n + 1 => nested do readAlternatives n (← readBinary n orLevel)

def readAlternatives : Nat → Expr → Reader Expr
  | 0, _ => failure
  | n + 1, yes => do
    if ← skip (.name "if") then
      let test ← readBinary n orLevel
      let no ←
        if ← skip (.name "else") then do readAlternatives n (← readBinary n orLevel)
        else pure .undefined
      readAlternatives n (.cond test yes no)
    else return yes

/-- An expression of operators from a level on. -/
def readBinary : Nat → (level : Nat) → Reader Expr
  | 0, _ => failure
  | n + 1, level => do
    if level = unaryLevel then readOperand n
    else if level = notLevel then
      if ← skip (.name "not") then return .not (← readBinary n notLevel)
      else readBinary n (level + 1)
    else if level = comparisonLevel then
      let first ← readBinary n (level + 1)
      let chain ← readComparisons n
      return if chain.isEmpty then first else .compare first chain
    else readChain n level (← readBinary n (level + 1))

def readChain : Nat → (level : Nat) → Expr → Reader Expr
  | 0, _, _ => failure
  | n + 1, level, l => do
    match ← operator? level with
    | some op => readChain n level (op l (← readBinary n (level + 1)))
    | none => return l

def readComparisons : Nat → Reader (List (Comparison × Expr))
  | 0 => failure
  | n + 1 => do
    match ← comparison? with
    | some op =>
      let r ← readBinary n (comparisonLevel + 1)
      return (op, r) :: (← readComparisons n)
    | none => return []

def readOperand : Nat → Reader Expr
  | 0 => failure
  | n + 1 => do readFilters n (← readMembers n (← readSigned n))

def readSigned : Nat → Reader Expr
  | 0 => failure
  | n + 1 => do
    if ← skip (.op "-") then return .minus (← readSigned n) else nested (readPrimary n)

/-- Members, indexes, slices and calls. -/
def readMembers : Nat → Expr → Reader Expr
  | 0, _ => failure
  | n + 1, e => do
    if ← skip (.op ".") then
      match ← next with
      | .name s => readMembers n (.member e s)
      | .whole k => readMembers n (.index e (.whole k))
      | _ => failure
    else if ← skip (.op "[") then
      let start ← readPlace n
      if ← skip (.op ":") then
        let stop ← readPlace n
        let step ← if ← skip (.op ":") then readPlace n else pure none
        expect (.op "]")
        readMembers n (.slice e (start.getD .null) (stop.getD .null) (step.getD .null))
      else
        expect (.op "]")
        match start with
        | some key => readMembers n (.index e key)
        | none => failure
    else if ← skip (.op "(") then readMembers n (.call e (← readArgs n false))
    else return e

/-- A place in a slice, unless the slice goes on or ends here. -/
def readPlace : Nat → Reader (Option Expr)
  | 0 => failure
  | n + 1 => do
    if (← isNext (.op ":")) || (← isNext (.op "]")) then return none else some <$> readExpr n

/-- Filters and tests. -/
def readFilters : Nat → Expr → Reader Expr
  | 0, _ => failure
  | n + 1, e => do
    if ← skip (.op "|") then
      let f ← name
      let args ← if ← skip (.op "(") then readArgs n false else pure []
      readFilters n (.filter f e args)
    else if ← skip (.name "is") then
      let negated ← skip (.name "not")
      let t ← name
      let args ←
        if ← skip (.op "(") then readArgs n false
        else if startsOperand (← peek) then do
          let x ← readMembers n (← readSigned n)
          pure [(.positional, x)]
        else pure []
      readFilters n (if negated then .not (.test t e args) else .test t e args)
    else return e

/-- Arguments up to the closing bracket. Behind a named one there may be no plain positional one. -/
def readArgs : Nat → (named : Bool) → Reader Args
  | 0, _ => failure
  | n + 1, named => do
    if ← skip (.op ")") then return []
    else
      let arg ←
        if ← skip (.op "**") then do pure (Passing.members, ← readExpr n)
        else if ← skip (.op "*") then do pure (Passing.items, ← readExpr n)
        else do
          let e ← readExpr n
          match e with
          | .var s =>
            if ← skip (.op "=") then pure (Passing.named s, ← readBinary n orLevel)
            else pure (Passing.positional, e)
          | _ => pure (Passing.positional, e)
      if named && arg.1 = .positional then failure
      let named := named || (match arg.1 with | .named _ | .members => true | _ => false)
      if ← skip (.op ",") then return arg :: (← readArgs n named)
      else
        expect (.op ")")
        return [arg]

def readItems : Nat → (closing : String) → Reader (List Expr)
  | 0, _ => failure
  | n + 1, closing => do
    if ← skip (.op closing) then return []
    else
      let e ← readExpr n
      if ← skip (.op ",") then return e :: (← readItems n closing)
      else
        expect (.op closing)
        return [e]

/-- Keys and values up to the closing brace. -/
def readPairs : Nat → Reader (List (Expr × Expr))
  | 0 => failure
  | n + 1 => do
    if ← skip (.op "\x7d") then return []
    else
      let k ← readExpr n
      expect (.op ":")
      let v ← readExpr n
      if ← skip (.op ",") then return (k, v) :: (← readPairs n)
      else
        expect (.op "\x7d")
        return [(k, v)]

def readPrimary : Nat → Reader Expr
  | 0 => failure
  | n + 1 => do
    match ← next with
    | .name s => return wordExpr s
    | .str s => return .str s
    | .whole k => return .whole k
    | .decimal d e => return .decimal d e
    | .op "[" => return .list (← readItems n "]")
    | .op "\x7b" =>
      let pairs ← readPairs n
      return .dict (pairs.map (·.1)) (pairs.map (·.2))
    | .op "(" =>
      if ← skip (.op ")") then return .list []
      else
        let e ← readExpr n
        if ← skip (.op ",") then return .list (e :: (← readItems n ")"))
        else
          expect (.op ")")
          return e
    | _ => failure

end

/-! ## Targets -/

/-- The names that nothing can be bound to. -/
def reservedNames : List String :=
  ["true", "True", "false", "False", "none", "None", "loop", "self"]

def freeName : Reader String := do
  let s ← name
  if reservedNames.contains s then failure else return s

def endsTargets : Option Token → Bool
  | some (.op ")") => true
  | some .closeTag => true
  | some .closeOutput => true
  | some (.name "in") => true
  | _ => false

mutual

/-- Targets between commas; a single one without a comma stands for itself. -/
def readTargets : Nat → Reader Target
  | 0 => failure
  | n + 1 => do
    if endsTargets (← peek) then return .tuple []
    let t ← readTarget n
    if ← isNext (.op ",") then return .tuple (t :: (← readMoreTargets n)) else return t

def readTarget : Nat → Reader Target
  | 0 => failure
  | n + 1 => do
    if ← skip (.op "(") then
      let t ← readTargets n
      expect (.op ")")
      return t
    else return .name (← freeName)

def readMoreTargets : Nat → Reader (List Target)
  | 0 => failure
  | n + 1 => do
    if ← skip (.op ",") then
      if endsTargets (← peek) then return []
      else return (← readTarget n) :: (← readMoreTargets n)
    else return []

end

def readDotted : Nat → Expr → Reader Target
  | 0, _ => failure
  | n + 1, e => do
    if ← skip (.op ".") then
      let s ← name
      if ← isNext (.op ".") then readDotted n (.member e s) else return .member e s
    else failure

/-- The target of an assignment, and whether it may be bound to the text of parts. -/
def readAssigned (n : Nat) : Reader (Target × Bool) := do
  if ← isNext (.op "(") then return (← readTargets n, false)
  else
    let s ← freeName
    if ← isNext (.op ".") then return (← readDotted n (.var s), true)
    else if ← isNext (.op ",") then return (.tuple (.name s :: (← readMoreTargets n)), false)
    else return (.name s, true)

/-! ## Parts -/

def readFilterCalls : Nat → Reader (List FilterCall)
  | 0 => failure
  | n + 1 => do
    let f ← name
    let args ← if ← skip (.op "(") then readArgs n false else pure []
    let more ← if ← skip (.op "|") then readFilterCalls n else pure []
    return ⟨f, args⟩ :: more

def readBindings : Nat → Reader (List (Target × Expr))
  | 0 => failure
  | n + 1 => do
    let t ← readTarget n
    expect (.op "=")
    let e ← readExpr n
    let more ← if ← skip (.op ",") then readBindings n else pure []
    return (t, e) :: more

/-- The parameters of a routine up to the closing bracket. Behind one with a default all have one.
-/
def readParameters : Nat → (defaults : Bool) → Reader (List Parameter)
  | 0, _ => failure
  | n + 1, defaults => do
    if ← skip (.op ")") then return []
    else
      let s ← freeName
      let default ←
        if ← skip (.op "=") then some <$> readExpr n
        else if defaults then failure
        else pure none
      let p : Parameter := ⟨s, default⟩
      if ← skip (.op ",") then return p :: (← readParameters n default.isSome)
      else
        expect (.op ")")
        return [p]

/-- A mark, which says nothing here, that names are shared with another stencil or not. -/
def skipContextMark : Reader Unit := do
  if (← skip (.name "with")) || (← skip (.name "without")) then expect (.name "context")

/-- The names to take over from another stencil. -/
def skipTakenNames : Nat → Reader Unit
  | 0 => failure
  | n + 1 => do
    if (← isNext .closeTag) || (← isNext (.name "with")) || (← isNext (.name "without")) then
      return ()
    else
      let _ ← freeName
      if ← skip (.name "as") then let _ ← freeName
      if ← skip (.op ",") then skipTakenNames n

def readCall (n : Nat) : Reader (Expr × Args) := do
  match ← readExpr n with
  | .call callee args => return (callee, args)
  | _ => failure

mutual

/-- Parts up to the first tag with one of some words; no word means up to the end. The tag's word is
taken too. -/
def readParts : Nat → (stops : List String) → Reader (List Part × String)
  | 0, _ => failure
  | n + 1, stops => do
    if (← get).rest.isEmpty then
      if stops.isEmpty then return ([], "") else failure
    match ← next with
    | .text s =>
      let (ps, stop) ← readParts n stops
      return (.text s :: ps, stop)
    | .openOutput =>
      let e ← readExpr n
      expect .closeOutput
      let (ps, stop) ← readParts n stops
      return (.output e :: ps, stop)
    | .openTag =>
      let word ← name
      if stops.contains word then return ([], word)
      else
        let p ← nested (readTag n word)
        expect .closeTag
        let (ps, stop) ← readParts n stops
        return (p :: ps, stop)
    | _ => failure

def readBody : Nat → (stop : String) → Reader (List Part)
  | 0, _ => failure
  | n + 1, stop => do
    expect .closeTag
    let (ps, _) ← readParts n [stop]
    return ps

def readRoutine : Nat → (stop : String) → Reader (List Part)
  | 0, _ => failure
  | n + 1, stop => do
    let outer := (← get).inRoutine
    modify fun s => { s with inRoutine := true }
    let ps ← readBody n stop
    modify fun s => { s with inRoutine := outer }
    return ps

/-- A tag behind its word, with the parts inside it, up to the end of its last tag. -/
def readTag : Nat → (word : String) → Reader Part
  | 0, _ => failure
  | n + 1, word => do
    match word with
    | "if" => readCond n
    | "for" =>
      let target ← readTargets n
      expect (.name "in")
      let items ← readBinary n orLevel
      let condition ← if ← skip (.name "if") then some <$> readExpr n else pure none
      let recursive ← skip (.name "recursive")
      expect .closeTag
      let (body, stop) ← readParts n ["else", "endfor"]
      let otherwise ← if stop = "else" then readBody n "endfor" else pure []
      return .each target items condition recursive body otherwise
    | "set" =>
      let (target, single) ← readAssigned n
      if ← skip (.op "=") then return .bind target (← readExpr n)
      else if single then
        let filters ← if ← skip (.op "|") then readFilterCalls n else pure []
        return .bindText target filters (← readBody n "endset")
      else failure
    | "with" =>
      let bindings ← if ← isNext .closeTag then pure [] else readBindings n
      return .scope bindings (← readBody n "endwith")
    | "filter" =>
      let filters ← readFilterCalls n
      return .filtered filters (← readBody n "endfilter")
    | "autoescape" =>
      let mode ← readExpr n
      return .escaped mode (← readBody n "endautoescape")
    | "block" =>
      let s ← name
      if (← get).inRoutine || (← get).blocks.contains s then failure
      modify fun r => { r with blocks := s :: r.blocks }
      let body ← readBody n "endblock"
      let closing ← if ← isNext .closeTag then pure s else name
      if closing = s then return .block s body else failure
    | "include" =>
      let e ← readExpr n
      skipContextMark
      let optional ← skip (.name "ignore")
      if optional then
        expect (.name "missing")
        skipContextMark
      return .embed e optional
    | "extends" => return .require (← readExpr n)
    | "import" =>
      let e ← readExpr n
      expect (.name "as")
      let _ ← freeName
      skipContextMark
      return .require e
    | "from" =>
      let e ← readExpr n
      expect (.name "import")
      skipTakenNames n
      skipContextMark
      return .require e
    | "macro" =>
      let s ← name
      expect (.op "(")
      let params ← readParameters n false
      return .routine s params (← readRoutine n "endmacro")
    | "call" =>
      let params ← if ← skip (.op "(") then readParameters n false else pure []
      let (callee, args) ← readCall n
      return .callWith callee args params (← readRoutine n "endcall")
    | "do" =>
      let (callee, args) ← readCall n
      return .perform callee args
    | _ => failure

def readCond : Nat → Reader Part
  | 0 => failure
  | n + 1 => do
    let test ← readBinary n orLevel
    expect .closeTag
    let (yes, stop) ← readParts n ["elif", "else", "endif"]
    match stop with
    | "elif" => return .cond test yes [← readCond n]
    | "else" => return .cond test yes (← readBody n "endif")
    | _ => return .cond test yes []

end

/-- Steps enough to read some tokens. -/
def stepsFor (ts : List Token) : Nat := 20 * (ts.length + 2)

/-- The parts of a stencil; `none` if it is not well formed. -/
def read (s : String) : Option (List Part) := do
  let ts ← scan s.toList
  let ((ps, _), left) ← (readParts (stepsFor ts) []).run { rest := ts }
  if left.rest.isEmpty then some ps else none

end Sigil.Stencil
