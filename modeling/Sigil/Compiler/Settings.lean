/-!
# Compiler settings

How the compiler is run.
-/

namespace Sigil.Compiler

structure Settings where
  /-- The compiler's program. -/
  program : String := "rustc"
  edition : String := "2021"
  /-- How many milliseconds the compiler may take. -/
  timeout : Option Nat := none
  /-- The directory for scratch directories. -/
  tempDir : String
  /-- Whether to compile for debugging, and keep the source. -/
  debug : Bool := false
  /-- Files that every compilation is given. -/
  references : List String := []
  extraArgs : List String := []
  deriving DecidableEq, Repr, Inhabited

end Sigil.Compiler
