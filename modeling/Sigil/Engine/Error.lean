import Sigil.Compiler.Failure
import Sigil.Compiler.Run
import Sigil.Code.Spec
import Sigil.Library.Exports
import Sigil.Render.Scope

/-!
# Errors of an engine
-/

namespace Sigil.Engine

open Code Compiler Library Render

/-- What an engine was doing when something unexpected happened. -/
inductive Activity where
  | serializing
  | compiling
  deriving DecidableEq, Repr

def Activity.text : Activity → String
  | serializing => "serializing generated source"
  | compiling => "compiling template"

inductive EngineError where
  | spec (e : SpecError)
  | unsupportedReference (e : ReferenceError)
  /-- The template cannot be read or compiled. -/
  | compilation (f : Failure)
  | load (e : LoadError)
  | unexpected (during : Activity)
  | modelMismatch (expected found : String)
  | render (e : RenderError)
  /-- The template could not be compiled earlier. -/
  | failed (e : EngineError)
  deriving DecidableEq, Repr

/-- The text of an error; `libraries` are listed in the report of a failure. -/
def EngineError.message (libraries : List String) : EngineError → String
  | spec e => e.message
  | unsupportedReference e => "unsupported compiler reference: " ++ e.message
  | compilation f => f.report libraries
  | load e => e.message
  | unexpected during => "unexpected error while " ++ during.text
  | modelMismatch expected found =>
    "compiled template model type `" ++ expected ++ "` does not match the model type `" ++ found ++
      "` provided"
  | render e => "render failed: " ++ e.message
  | failed e => "template failed to compile: " ++ e.message libraries

end Sigil.Engine
