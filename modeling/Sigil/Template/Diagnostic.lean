import Sigil.Text.Position

/-!
# Diagnostics

A fault is a cause and the offset where it was found; a diagnostic adds its line and column in the
template.
-/

namespace Sigil.Template

/-- What is wrong with a template. -/
inductive Cause where
  | unterminatedComment
  | codeBlockUnsupported
  | emptyExpression
  | expectedCloseParen
  | unterminatedString
  | unexpectedCharacter
  | urlExpectsString
  deriving DecidableEq, Repr

namespace Cause

def code : Cause → String
  | unterminatedComment => "QS0001"
  | codeBlockUnsupported => "QS0002"
  | emptyExpression => "QS0003"
  | expectedCloseParen => "QS0004"
  | unterminatedString => "QS0005"
  | unexpectedCharacter => "QS0006"
  | urlExpectsString => "QS0007"

def message : Cause → String
  | unterminatedComment => "comment is not terminated with '*@'"
  | codeBlockUnsupported => "'@\x7b' code blocks are not supported"
  | emptyExpression => "expected an expression after '@'"
  | expectedCloseParen => "expected ')' to close the expression"
  | unterminatedString => "string literal is not terminated"
  | unexpectedCharacter => "unexpected character in expression"
  | urlExpectsString => "@Url expects a string literal"

end Cause

/-- A cause and the offset where it was found. -/
structure Fault where
  cause : Cause
  position : Nat
  deriving DecidableEq, Repr

inductive Severity where
  | error
  | warning
  deriving DecidableEq, Repr

structure Diagnostic where
  cause : Cause
  severity : Severity
  position : Nat
  line : Nat
  column : Nat
  deriving DecidableEq, Repr

namespace Diagnostic

def ofFault (template : List Char) (f : Fault) : Diagnostic :=
  let (line, column) := Text.lineColumn template f.position
  ⟨f.cause, .error, f.position, line, column⟩

def text (d : Diagnostic) : String :=
  s!"{d.cause.code} ({d.line}:{d.column}): {d.cause.message}"

end Diagnostic
end Sigil.Template
