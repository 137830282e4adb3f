import Sigil.Render.Bag
import Sigil.Render.Value

/-!
# Evaluation

An operand is a member path or a literal; its mode says how its text is encoded. A scope holds the
model, the side values and the encoder that a template renders with. `Scope.resolve` gives a path
its value and `Scope.evaluate` an operand.
-/

namespace Sigil.Render

/-- Why a template cannot be rendered. -/
inductive RenderError where
  | missingMember (path : String)
  | invalidNumber (text : String)
  /-- A call that does not keep to the convention between library and host. -/
  | badCall (what : String)
  | versionMismatch (expected found : Nat)
  | panicked (message : String)
  | write
  deriving DecidableEq, Repr

def RenderError.message : RenderError → String
  | missingMember path => "model has no member `" ++ path ++ "`"
  | invalidNumber text => "invalid number literal `" ++ text ++ "`"
  | badCall what => "template ABI error: " ++ what
  | versionMismatch expected found =>
    s!"template ABI version {found} does not match host version {expected}"
  | panicked message => "template panicked: " ++ message
  | write => "failed to write template output"

/-- What a template asks the host to evaluate. -/
inductive Operand where
  | path (path : String)
  | str (text : String)
  | number (text : String)
  | bool (b : Bool)
  | null
  deriving DecidableEq, Repr

inductive Mode where
  /-- By the encoder. -/
  | plain
  /-- Not at all. -/
  | raw
  /-- By entities, whatever the encoder. -/
  | encode
  deriving DecidableEq, Repr

/-- What a template renders with. -/
structure Scope where
  model : Json
  bag : Bag
  encoder : Encoder

def modelRoot : String := "Model"

/-- The first segment of a path into the side values. -/
def bagRoot : String := "TemplateData"

/-- The number that a literal spells, blanks around it ignored. Zero has no sign. -/
def number? (text : String) : Option Number := do
  let (x, rest) ← Numeral.read (Json.Written.skip text.toList)
  if (Json.Written.skip rest).isEmpty then
    match ← x.number? with
    | .float true m =>
      if m.isZero then some (if x.isWhole then .whole 0 else .float false m)
      else some (.float true m)
    | n => some n
  else none

namespace Scope

/-- The value of a path. A path that names its root is read there; any other is read in the model if
the model has its first member, and otherwise among the side values. What is missing from the model
is an error, what is missing from the side values is null. -/
def resolve (s : Scope) (path : String) : Except RenderError Json :=
  let missing := Except.error (.missingMember path)
  match Json.segments path with
  | [] => missing
  | head :: rest =>
    if head = modelRoot then (s.model.walk? rest).elim missing .ok
    else if head = bagRoot then
      .ok (if rest.isEmpty then s.bag.toJson else s.bag.lookup (Json.dotted rest))
    else
      match s.model.member? head with
      | some first => (first.walk? rest).elim missing .ok
      | none => if s.bag.contains head then .ok (s.bag.lookup path) else missing

/-- The value of an operand, before its mode is applied. -/
def value (s : Scope) : Operand → Except RenderError Value
  | .path p => (s.resolve p).map .json
  | .str t => .ok (.str t)
  | .number t => (number? t).elim (.error (.invalidNumber t)) fun n => .ok (.json (.num n))
  | .bool b => .ok (.json (.bool b))
  | .null => .ok (.json .null)

end Scope

/-- A value with its text encoded as a mode says; a value without text stays as it is. -/
def Mode.apply (m : Mode) (v : Value) : Value :=
  match m, v.display? with
  | .plain, _ => v
  | _, none => v
  | .raw, some t => .encoded (.raw t)
  | .encode, some t => .encoded (.ofText t)

def Scope.evaluate (s : Scope) (o : Operand) (m : Mode) : Except RenderError Value :=
  (s.value o).map m.apply

end Sigil.Render
