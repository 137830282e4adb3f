import Sigil.Compiler.Settings
import Sigil.Library.Registry
import Sigil.Order.NameSet

/-!
# Compiler arguments

The command line of a compilation. Every file gets a search path for its directory, and a crate is
also bound to its name. Names that imports start with and that no file provides are looked up in the
registry. No search path and no name is given twice.
-/

namespace Sigil.Compiler

open Text Library

/-- The names that never need a reference. -/
def implicitCrates : List String := ["std", "core", "alloc", "crate", "self", "super"]

def pathSeparator : List Char := [':', ':']

theorem pathSeparator_ne_nil : pathSeparator ≠ [] := by decide

def dropSeparators : List Char → List Char
  | ':' :: ':' :: r => dropSeparators r
  | s => s

/-- The name that an import starts with. -/
def crateRoot (path : String) : String :=
  String.ofList (trim ((pieces pathSeparator pathSeparator_ne_nil
    (dropSeparators (trim path.toList))).headD []))

/-- The crates that imports start with, apart from those that are always there. -/
def crateRoots (imports : List String) : NameSet :=
  .ofList ((imports.map crateRoot).filter fun r => !r.isEmpty && !implicitCrates.contains r)

/-- A character of a crate's name: a letter or digit in lower case, or an underscore. -/
def crateChar (c : Char) : Char := if c.isAlphanum then c.toLower else '_'

def crateName (assemblyName : String) : String :=
  "quill_dynamic_" ++ String.ofList (assemblyName.toList.map crateChar)

def isCratePath (path : String) : Bool := (Path.fileName? path).any isCrateName

structure Links where
  args : List String := []
  /-- The search paths that are given already. -/
  searchPaths : List String := []
  /-- The crates that are bound already. -/
  externs : List String := []
  deriving DecidableEq, Repr

namespace Links

/-- A search path, unless it is given already. -/
def search (l : Links) (value : String) : Links :=
  if l.searchPaths.contains value then l
  else { l with args := l.args ++ ["-L", value], searchPaths := value :: l.searchPaths }

/-- A crate bound to its file, unless it is bound already. -/
def bind (l : Links) (name path : String) : Links :=
  if l.externs.contains name then l
  else
    { l with args := l.args ++ ["--extern", name ++ "=" ++ path], externs := name :: l.externs }

def directory (path : String) : String := (Path.parent? path).getD "."

/-- A file; with a name it is a crate. -/
def add (l : Links) (path : String) (name : Option String) : Links :=
  match name with
  | some n => (l.search ("dependency=" ++ directory path)).bind n path
  | none => l.search ("native=" ++ directory path)

def addFile (l : Links) (path : String) : Links :=
  l.add path (if isCratePath path then (Reference.file path).identity? else none)

/-- A crate that is found in the registry, unless a file provides it. -/
def addRoot (g : Registry) (d : Disk) (l : Links) (root : String) : Links :=
  if l.externs.contains root then l
  else
    match (g.resolve? d root).bind (·.location) with
    | some path => if isCratePath path then l.add path (some root) else l
    | none => l

def of (g : Registry) (d : Disk) (files imports : List String) : Links :=
  (crateRoots imports).toList.foldl (addRoot g d) (files.foldl addFile {})

end Links

def fixedArguments (s : Settings) (assemblyName : String) : List String :=
  ["--crate-type", "cdylib", "--edition", s.edition, "--error-format", "json", "--crate-name",
    crateName assemblyName] ++
  (if s.debug then ["-g", "-C", "opt-level=0"] else ["-C", "opt-level=2"])

def arguments (s : Settings) (g : Registry) (d : Disk) (assemblyName : String)
    (imports files : List String) (source output : String) : List String :=
  fixedArguments s assemblyName ++ (Links.of g d files imports).args ++ s.extraArgs ++
    ["-o", output, source]

end Sigil.Compiler
