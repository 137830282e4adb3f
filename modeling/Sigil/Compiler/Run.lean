import Sigil.Compiler.Arguments
import Sigil.Compiler.Message
import Sigil.Compiler.Process
import Sigil.Disk.Scratch
import Sigil.Text.Utf8

/-!
# Compilations

`compile` writes a source into a scratch directory, runs the compiler there and reads its log. A
compilation that fails leaves nothing: whatever happens after the scratch directory was made, it is
removed again unless there is an output to keep it.
-/

namespace Sigil.Compiler

open Text Library

structure Request where
  source : String
  /-- The name of the source file and the library, without extension. -/
  assemblyName : String
  imports : NameSet
  references : List Reference

structure Output where
  errors : List Message
  artifacts : Artifacts
  library : String
  deriving DecidableEq, Repr, Inhabited

def Output.hasErrors (o : Output) : Bool := o.errors.any (!·.warning)

inductive RunError where
  | unsupportedReference (e : ReferenceError)
  | noScratch (root : String)
  | noProcess (program : String)
  | timeout (program : String) (milliseconds : Nat)
  | io
  deriving DecidableEq, Repr

/-- A number of thousandths as a decimal, without zeros at its end. -/
def thousandths (n : Nat) : String :=
  let digits := (Nat.toDigits 10 (1000 + n % 1000)).drop 1
  let places := (digits.reverse.dropWhile (· = '0')).reverse
  toString (n / 1000) ++ if places.isEmpty then "" else "." ++ String.ofList places

/-- A time in the unit that suits it. -/
def durationText (milliseconds : Nat) : String :=
  if milliseconds = 0 then "0ns"
  else if milliseconds < 1000 then toString milliseconds ++ "ms"
  else thousandths milliseconds ++ "s"

def RunError.message : RunError → String
  | unsupportedReference e => "unsupported compiler reference: " ++ e.message
  | noScratch root => "could not create a scratch directory under " ++ root
  | noProcess program => "failed to run `" ++ program ++ "`"
  | timeout program ms => "`" ++ program ++ "` timed out after " ++ durationText ms
  | io => "I/O error during compilation"

def logName : String := "compiler.log"

/-- The name of the source that is kept for debugging. -/
def keptName : String := "generated_template.rs"

/-- The files of references: each once, and none without a name. -/
def referenceFiles : List Reference → Except ReferenceError (List String)
  | [] => .ok []
  | r :: rs => do
    let path ← r.toFile
    let more ← referenceFiles rs
    return if path.isEmpty then more else path :: more.filter (!Path.alike path ·)

/-- The status and the log of a process, or why there is none. -/
def runProcess (s : Settings) (b : Behaviour) (d : Disk) (folder : String) :
    Disk × Except RunError (Status × String) :=
  let logPath := Path.append folder logName
  match d.write logPath [] with
  | .error _ => (d, .error .io)
  | .ok d =>
    match d.find? s.program with
    | some (.file .program _) =>
      let d := b.run d folder logPath
      let ended (status : Status) : Disk × Except RunError (Status × String) :=
        match (d.read? logPath).map Utf8.decode with
        | some (.ok log) => (d, .ok (status, log))
        | _ => (d, .error .io)
      match s.timeout, b.outcome with
      | some 0, _ => (d, .error (.timeout s.program 0))
      | some ms, .hang => (d, .error (.timeout s.program ms))
      | none, .hang => (d, .error .io)
      | _, .exit code => ended (.exit code)
      | _, .signal n => ended (.signal n)
    | _ => (d, .error (.noProcess s.program))

/-- Keeps a copy of the source for debugging, unless the compiler left one. -/
def keepSource (d : Disk) (folder sourcePath source : String) : Except RunError Disk :=
  let target := Path.append folder keptName
  if d.holds target then .ok d
  else
    let bytes := (d.read? sourcePath).getD (Utf8.encode source)
    match d.write target bytes with
    | .ok d => .ok d
    | .error _ => .error .io

/-- The errors of a compilation: those that the compiler wrote, and one for an unsuccessful status
that they do not explain. -/
def errorsOf (status : Status) (log : String) : List Message :=
  let ms := readMessages log.toList
  if status.isSuccess || ms.any (!·.warning) then ms
  else
    ms ++ [.error ("rustc exited with " ++ status.text ++ ": " ++ String.ofList (trim log.toList))]

/-- What happens in a scratch directory. -/
def compileIn (s : Settings) (g : Registry) (compiler : List String → Behaviour) (r : Request)
    (files : List String) (d : Disk) (folder : String) : Disk × Except RunError Output :=
  let sourcePath := Path.append folder (r.assemblyName ++ ".rs")
  let library := Path.append folder (r.assemblyName ++ ".so")
  match d.write sourcePath (Utf8.encode r.source) with
  | .error _ => (d, .error .io)
  | .ok d =>
    let args := arguments s g d r.assemblyName r.imports.toList files sourcePath library
    match runProcess s (compiler args) d folder with
    | (d, .error e) => (d, .error e)
    | (d, .ok (status, log)) =>
      let output : Output := ⟨errorsOf status log, ⟨some r.source, some folder, false⟩, library⟩
      if s.debug then
        match keepSource d folder sourcePath r.source with
        | .ok d => (d, .ok output)
        | .error e => (d, .error e)
      else (d, .ok output)

/-- Compiles a source with a compiler that behaves as its command line lets it; `names` are the
names that scratch directories get. -/
def compile (s : Settings) (g : Registry) (compiler : List String → Behaviour)
    (names : Nat → String) (r : Request) (d : Disk) : Disk × Except RunError Output :=
  match referenceFiles r.references with
  | .error e => (d, .error (.unsupportedReference e))
  | .ok files =>
    match d.createNamed s.tempDir names with
    | (d, .error _) => (d, .error (.noScratch s.tempDir))
    | (d, .ok folder) =>
      match compileIn s g compiler r files d folder with
      | (d, .ok o) => (d, .ok o)
      | (d, .error e) => (d.removePath folder, .error e)

end Sigil.Compiler
