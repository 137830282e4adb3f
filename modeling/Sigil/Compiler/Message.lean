import Sigil.Json.Record
import Sigil.Text.Blank
import Sigil.Text.Pieces

/-!
# Compiler messages

One error or warning of a compilation. A compiler writes its messages as JSON objects, one on each
line; `readMessages` takes errors and warnings from them and reads over everything else. A message
stands where its first primary span is, or else its first span.
-/

namespace Sigil.Compiler

open Text Json

structure Message where
  message : String
  file : String
  line : Nat
  column : Nat
  code : String
  warning : Bool
  deriving DecidableEq, Repr, Inhabited

namespace Message

def error (message : String) : Message := ⟨message, "", 0, 0, "", false⟩

def severity (m : Message) : String := if m.warning then "warning" else "error"

def text (m : Message) : String :=
  s!" - {m.severity}: ({m.line}, {m.column}) {m.message}"

end Message

structure Span where
  file : String
  line : Nat
  column : Nat
  primary : Bool
  deriving DecidableEq, Repr

/-- A message as it is written. -/
structure Record where
  message : String
  level : String
  code : Option String
  spans : List Span
  deriving DecidableEq, Repr

/-- A field that need not be written. -/
def optional {α : Type} (read : Written → Option α) (otherwise : α) :
    Option Written → Option α
  | some w => read w
  | none => some otherwise

def Span.read? (w : Written) : Option Span := do
  match ← w.fields? ["file_name", "line_start", "column_start", "is_primary"] with
  | [some file, some line, some column, primary] =>
    return ⟨← file.text?, ← line.nat?, ← column.nat?, ← optional Written.bool? false primary⟩
  | _ => none

def readCode? : Written → Option (Option String)
  | .null => some none
  | w => do
    match ← w.fields? ["code"] with
    | [some code] => return some (← code.text?)
    | _ => none

def Record.read? (w : Written) : Option Record := do
  match ← w.fields? ["message", "level", "code", "spans"] with
  | [some message, some level, code, spans] =>
    return ⟨← message.text?, ← level.text?, ← optional readCode? none code,
      ← optional (fun w => do (← w.items?).mapM Span.read?) [] spans⟩
  | _ => none

/-- Whether a level is one of a warning; `none` for levels that are no error either. -/
def isWarning? (level : String) : Option Bool :=
  if startsWith level.toList "error".toList then some false
  else if startsWith level.toList "warning".toList then some true
  else none

/-- The span that a message stands at. -/
def Record.span? (r : Record) : Option Span := (r.spans.find? (·.primary)).or r.spans.head?

def Record.message? (r : Record) : Option Message := do
  let warning ← isWarning? r.level
  let code := r.code.getD ""
  match r.span? with
  | some s => return ⟨r.message, s.file, s.line, s.column, code, warning⟩
  | none => return ⟨r.message, "", 0, 0, code, warning⟩

def readMessage? (line : List Char) : Option Message :=
  if startsWith (trimStart line) ['{'] then do
    (← Record.read? (← Written.read line)).message?
  else none

def readMessages (output : List Char) : List Message := (lines output).filterMap readMessage?

end Sigil.Compiler
