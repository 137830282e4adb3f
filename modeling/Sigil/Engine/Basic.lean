import Sigil.Engine.Error
import Sigil.Engine.Settings

/-!
# Engines

An engine turns templates into loaded types: it checks a specification and reads its template,
resolves references and registers them, hands the source to its backend, and loads the result.
`Engine.compile` tells what became of the registry and what the backend was asked.
-/

namespace Sigil

open Code Compiler Library Template

namespace Engine

structure Built where
  output : Output
  /-- What is found at the path of the library. -/
  library : LibraryFile

/-- A compiler as an engine sees it. -/
structure Backend where
  /-- The references that the compiler itself needs. -/
  includes : List Reference
  compile : SourceUnit → Request → Except RunError Built

/-- The references for a specification; those that the compiler needs are among them. -/
abbrev Resolver := ClassSpec → List Reference → List Reference

end Engine

/-- What turns templates into loaded types. -/
structure Engine extends Engine.Config where
  resolve : Engine.Resolver
  backend : Engine.Backend

namespace Engine

/-- A template that was compiled and loaded. -/
structure Compiled where
  type : LoadedType
  artifacts : Artifacts
  template : String
  model : Option ModelType

/-- What became of a compilation. -/
structure Attempt where
  registry : Registry
  /-- What the backend was asked, if it was. -/
  request : Option Request
  result : Except EngineError Compiled

/-- A specification without a model type that says nothing. -/
def withoutDynamic (s : ClassSpec) : ClassSpec :=
  { s with model := s.model.filter (!·.isDynamic) }

/-- A specification with everything that the engine adds to it. -/
def complete (e : Engine) (s : ClassSpec) : ClassSpec :=
  let s := withoutDynamic s
  let s := { s with base := s.base.or e.base }
  { s with imports := (s.imports.union e.settings.imports).union s.effectiveBase.imports }

/-- The unit of a specification, and the specification with the imports of its template. -/
def prepare (e : Engine) (s : ClassSpec) : Except EngineError (SourceUnit × ClassSpec) :=
  let s := e.complete s
  let base := s.effectiveBase
  let names := s.names base
  match s.check with
  | .error err => .error (.spec err)
  | .ok () =>
    let (t, s) := s.generate e.translator base
    if t.hasErrors then
      .error (.compilation (.ofDiagnostics t.diagnostics templateFile s.template))
    else
      match SourceUnit.of names t.tree base s.effectiveModel with
      | .error _ => .error (.unexpected .serializing)
      | .ok u => .ok (u, s)

def request (e : Engine) (u : SourceUnit) (s : ClassSpec) : Request :=
  ⟨u.text, s.className, s.imports, e.resolve s e.backend.includes⟩

def EngineError.ofRun : RunError → EngineError
  | .unsupportedReference e => .unsupportedReference e
  | _ => .unexpected .compiling

/-- The loaded type of what a backend has made. -/
def loadBuilt (copied : Bool) (s : ClassSpec) (b : Built) : Except EngineError Compiled :=
  if b.output.hasErrors then
    .error (.compilation ⟨b.output.errors, some b.output.artifacts, s.template⟩)
  else
    match load copied b.output.library b.library s.fullName with
    | .error e => .error (.load e)
    | .ok t => .ok ⟨t, b.output.artifacts, s.template, s.model⟩

/-- What a compilation comes to, by the answer of the backend. -/
def conclude (e : Engine) (s : ClassSpec) : Except RunError Built → Except EngineError Compiled
  | .error err => .error (.ofRun err)
  | .ok b => loadBuilt e.settings.copiesLibraries s b

/-- A compilation with some registry. The backend is asked by `ask`, in sight of the registry as it
is then. -/
def compileAsking {m : Type → Type} [Monad m] (e : Engine)
    (ask : Registry → SourceUnit → Request → m (Except RunError Built)) (g : Registry)
    (s : ClassSpec) : m Attempt :=
  match e.prepare s with
  | .error err => return ⟨g, none, .error err⟩
  | .ok (u, s) => do
    let r := e.request u s
    let g := g.addAll r.references
    let answer ← ask g u r
    return ⟨g, some r, e.conclude s answer⟩

/-- A compilation with some registry and the engine's own backend. -/
def compile (e : Engine) (g : Registry) (s : ClassSpec) : Attempt :=
  Id.run (e.compileAsking (fun _ u r => return e.backend.compile u r) g s)

/-- The backend whose compiler never fails: it makes the library that the unit describes. -/
def Backend.faithful (includes : List Reference) (tempDir : String) : Backend where
  includes := includes
  compile u r :=
    match referenceFiles r.references with
    | .error e => .error (.unsupportedReference e)
    | .ok _ =>
      let path := Path.append tempDir (r.assemblyName ++ ".so")
      .ok ⟨⟨[], ⟨some r.source, some tempDir, false⟩, path⟩, .library (.ofUnit u)⟩

end Engine
end Sigil
