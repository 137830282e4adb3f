import Sigil.Compiler.Message
import Sigil.Disk.Scratch
import Sigil.Template.Diagnostic

/-!
# Failed compilations

A template that could not be read or compiled. `Failure.report` is the text for a reader: the
errors, the template, and the source and the directory of the compilation if there was one.
-/

namespace Sigil.Compiler

structure Failure where
  errors : List Message
  artifacts : Option Artifacts
  template : String
  deriving DecidableEq, Repr, Inhabited

def Message.ofDiagnostic (file : String) (d : Template.Diagnostic) : Message :=
  ⟨d.cause.message, file, d.line, d.column, d.cause.code, d.severity = .warning⟩

namespace Failure

/-- The failure of a template that cannot be read. -/
def ofDiagnostics (ds : List Template.Diagnostic) (file template : String) : Failure :=
  ⟨ds.map (Message.ofDiagnostic file), none, template⟩

def separated (text : String) : String :=
  "\n------------- START -----------\n" ++ text ++ "\n------------- END -----------\n"

def preface : String :=
  "Errors while compiling a Template.\n" ++
  "Please try the following to solve the situation:\n" ++
  "  * If the problem is about missing references, add them to the engine configuration or " ++
  "install a custom ReferenceResolver.\n" ++
  "  * If the problem is about a missing crate in a `@using`, make sure an rlib of that crate is " ++
  "among the configured references.\n" ++
  "  * Set `debug` in the engine configuration to keep the generated source " ++
  "(`generated_template.rs`) next to the compiler output.\n" ++
  "More details about the error:\n"

/-- The report; `libraries` are listed at its end. -/
def report (f : Failure) (libraries : List String) : String :=
  let folder := f.artifacts.bind (·.folder)
  let source := f.artifacts.bind (·.source)
  preface ++ "\t" ++ "\n\t".intercalate (f.errors.map Message.text) ++ "\n" ++
  folder.elim "" (fun p =>
    "Temporary files of the compilation can be found in (please delete the folder): " ++ p ++ "\n") ++
  "The template we tried to compile is: " ++ separated f.template ++ "\n" ++
  source.elim "" (fun s => "The generated source code is: " ++ separated s ++ "\n") ++
  "\nList of loaded libraries:\n" ++
  if libraries.isEmpty then ""
  else "\tLoaded library: " ++ "\n\tLoaded library: ".intercalate libraries

end Failure
end Sigil.Compiler
