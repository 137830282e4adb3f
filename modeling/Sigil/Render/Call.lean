import Sigil.Render.Rendering
import Sigil.Text.Utf8

/-!
# Calls

What a template's library asks its host to do. A call carries numbers and bytes; `Argument.decode`
gives them their meaning and `Rendering.perform` carries the call out. A call whose bytes or numbers
have no meaning fails before it writes anything.
-/

namespace Sigil.Render

open Text

/-- An operand and its mode as a library passes them. -/
structure Argument where
  kind : Nat
  mode : Nat
  text : List UInt8
  deriving DecidableEq, Repr

/-- A part of an attribute's value as a library passes it. -/
structure FragmentArgument where
  lead : List UInt8
  leadPosition : Nat
  value : Argument
  position : Nat
  literal : Bool
  deriving DecidableEq, Repr

inductive Call where
  | write (value : Argument)
  | literal (text : List UInt8)
  | attribute (name opening : List UInt8) (openingPosition : Nat) (closing : List UInt8)
    (closingPosition : Nat) (fragments : List FragmentArgument)
  | fail (message : List UInt8)
  /-- A call that names no writer. -/
  | astray
  deriving DecidableEq, Repr

def decodeText (bytes : List UInt8) : Except RenderError String :=
  match Utf8.decode bytes with
  | .ok s => .ok s
  | .error f => .error (.badCall ("string is not valid UTF-8: " ++ f.message))

/-- The kinds of operands, by number. -/
def Operand.ofKind? (kind : Nat) (text : String) : Option Operand :=
  match kind with
  | 0 => some (.path text)
  | 1 => some (.str text)
  | 2 => some (.number text)
  | 3 => some (.bool true)
  | 4 => some (.bool false)
  | 5 => some .null
  | _ => none

/-- The modes, by number. -/
def Mode.ofNumber? : Nat → Option Mode
  | 0 => some .plain
  | 1 => some .raw
  | 2 => some .encode
  | _ => none

def Argument.decode (a : Argument) : Except RenderError (Operand × Mode) := do
  let text ← decodeText a.text
  match Operand.ofKind? a.kind text with
  | none => .error (.badCall s!"unknown expression kind {a.kind}")
  | some o =>
    match Mode.ofNumber? a.mode with
    | none => .error (.badCall s!"unknown write mode {a.mode}")
    | some m => .ok (o, m)

/-- A part of an attribute's value, evaluated unless it is text of the template. -/
def FragmentArgument.piece (s : Scope) (f : FragmentArgument) : Except RenderError Piece := do
  let lead ← decodeText f.lead
  if f.literal then
    return ⟨lead, .str (← decodeText f.value.text), true⟩
  else
    let (o, m) ← f.value.decode
    return ⟨lead, ← s.evaluate o m, false⟩

/-- What is said of a failure whose message is no text. -/
def failedMessage : String := "template failed"

/-- A call carried out, or the error that it is. -/
def Rendering.attempt (r : Rendering) (s : Scope) : Call → Except RenderError Rendering
  | .write a => do
    let (o, m) ← a.decode
    return r.write s o m
  | .literal t => return r.literal (← decodeText t)
  | .attribute name opening _ closing _ fragments => do
    let ps ← fragments.mapM (·.piece s)
    let name ← decodeText name
    let opening ← decodeText opening
    let closing ← decodeText closing
    return r.writeAttribute s.encoder name opening closing ps
  | .fail message => .error (.panicked ((decodeText message).toOption.getD failedMessage))
  | .astray => return r

/-- A call carried out; after an error calls do nothing. -/
def Rendering.perform (r : Rendering) (s : Scope) (c : Call) : Rendering :=
  if r.hasFailed then r
  else
    match r.attempt s c with
    | .ok r' => r'
    | .error e => r.fail e

def Rendering.run (r : Rendering) (s : Scope) (cs : List Call) : Rendering :=
  cs.foldl (·.perform s ·) r

/-- What a library's code does when a template is executed: the version of the call convention that
it keeps to, and its calls. -/
structure Program where
  version : Nat
  calls : List Call

/-- The output of a program, which must keep to the host's version of the convention. -/
def Program.execute (p : Program) (hostVersion : Nat) (s : Scope) : Except RenderError String :=
  if p.version = hostVersion then (Rendering.run {} s p.calls).finish
  else .error (.versionMismatch hostVersion p.version)

end Sigil.Render
