import Sigil.Code.Base
import Sigil.Compiler.Settings
import Sigil.Order.NameSet
import Sigil.Render.Encoding
import Sigil.Template.Reader
import Sigil.Text.Blank

/-!
# Engine settings

What an engine is configured with. `Settings.override` applies the environment to settings, and
`Settings.compiler` is what the compiler needs of them.
-/

namespace Sigil.Engine

open Text Render

structure Settings where
  /-- The compiler's program; the usual one if there is none. -/
  compilerProgram : Option String := none
  edition : String := "2021"
  debug : Bool := false
  /-- Whether a library is loaded from a copy. -/
  copiesLibraries : Bool := false
  /-- The directory for scratch directories; that of the system if there is none. -/
  tempDir : Option String := none
  timeoutSeconds : Option Nat := none
  /-- The imports of every template. -/
  imports : NameSet := ∅
  /-- The files that every compilation is given. -/
  references : List String := []
  extraArgs : List String := []
  encoding : Encoding := .html
  deriving DecidableEq

abbrev Environment := String → Option String

def isOn (s : String) : Bool :=
  let word := (trim s.toList).map Char.toLower
  [['1'], "true".toList, "yes".toList, "on".toList].contains word

namespace Settings

/-- The settings with what the environment says put first. An empty name of a program or directory
says nothing, but it hides the more general variable. -/
def override (s : Settings) (env : Environment) : Settings :=
  let text (v : Option String) : Option String := v.filter (!·.isEmpty)
  { s with
    compilerProgram := (text ((env "QUILL_RUSTC").or (env "RUSTC"))).or s.compilerProgram
    debug := ((env "QUILL_DEBUG").map isOn).getD s.debug
    tempDir := (text (env "QUILL_TEMP_DIR")).or s.tempDir }

/-- What the compiler needs; `systemTemp` is the system's directory for temporary files. -/
def compiler (s : Settings) (systemTemp : String) : Compiler.Settings where
  program := s.compilerProgram.getD "rustc"
  edition := s.edition
  timeout := s.timeoutSeconds.map (· * 1000)
  tempDir := s.tempDir.getD systemTemp
  debug := s.debug
  references := s.references
  extraArgs := s.extraArgs

/-- The settings with a time limit in whole seconds, at least one. -/
def limit (s : Settings) (milliseconds : Nat) : Settings :=
  { s with timeoutSeconds := some (max (milliseconds / 1000) 1) }

end Settings

/-- The file name in errors of a template. -/
def templateFile : String := "template"

/-- The data that an engine is made from. -/
structure Config where
  settings : Settings := {}
  translator : Template.Translator := .markup templateFile
  /-- The base type of templates that declare none. -/
  base : Option Code.BaseType := none
  encoder : Encoder := settings.encoding.encoder

end Sigil.Engine
