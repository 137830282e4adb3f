import Sigil.Code.Program

/-!
# Exports of template libraries

A library exports a function for each of its types, which returns the type's record, and maybe a
list of its types. `Exports.find` looks a type up by its full name; `load` opens the library first.
-/

namespace Sigil.Library

open Text Template Render

structure TypeRecord where
  fullName : List UInt8
  baseType : List UInt8
  modelType : List UInt8
  program : Program

structure Exports where
  /-- The symbols of types, with the records that their functions return. -/
  symbols : List (String × Option TypeRecord)
  /-- The list of types, unless it is not exported; a function may also return no list. -/
  table : Option (Option (List (List UInt8)))

/-- What is found at the path of a library. -/
inductive LibraryFile where
  | missing
  /-- A file that is no library. -/
  | junk
  | library (e : Exports)

inductive LoadError where
  | noOpen (path : String)
  | noRead (path : String)
  | noTypes (path : String)
  | typeNotFound (name : String) (found : List String)
  | versionMismatch (expected found : Nat)
  | badRecord (what : String)
  deriving DecidableEq, Repr

def LoadError.message : LoadError → String
  | noOpen path => "failed to open template library " ++ path
  | noRead path => "failed to read template library " ++ path
  | noTypes path => "template library " ++ path ++ " exports no types"
  | typeNotFound name found =>
    "type `" ++ name ++ "` not found in template library; it exports: " ++ ", ".intercalate found
  | versionMismatch expected found =>
    s!"template library ABI version {found} does not match host version {expected}"
  | badRecord what => "malformed template library: " ++ what

structure LoadedType where
  fullName : String
  baseType : String
  modelType : String
  /-- The path of the library. -/
  path : String
  program : Program

/-- The text that some bytes of a record spell. -/
def recordText (bytes : List UInt8) : Except LoadError String :=
  match Utf8.decode bytes with
  | .ok s => .ok s
  | .error f => .error (.badRecord f.message)

def TypeRecord.load (r : TypeRecord) (path : String) : Except LoadError LoadedType :=
  if r.program.version ≠ abiVersion then
    .error (.versionMismatch abiVersion r.program.version)
  else do
    let fullName ← recordText r.fullName
    let baseType ← recordText r.baseType
    let modelType ← recordText r.modelType
    return ⟨fullName, baseType, modelType, path, r.program⟩

/-- An entry of the list of types; one that is no text has a name that is none. -/
def entryText (bytes : List UInt8) : String := (recordText bytes).toOption.getD "<invalid>"

namespace Exports

/-- Why a type is missing. -/
def missing (e : Exports) (path fullName : String) : LoadError :=
  match e.table with
  | some (some (x :: xs)) => .typeNotFound fullName ((x :: xs).map entryText)
  | _ => .noTypes path

/-- What a symbol is looked up as. Symbols end in front of a NUL, so one NUL may stand at the end
and none elsewhere. -/
def lookupKey? (symbol : String) : Option String :=
  let cs := symbol.toList
  let key := if cs.getLast? = some '\x00' then cs.dropLast else cs
  if key.contains '\x00' then none else some (String.ofList key)

def find (e : Exports) (path fullName : String) : Except LoadError LoadedType :=
  let symbol := typeSymbol fullName
  match (lookupKey? symbol).bind fun key => e.symbols.lookup key with
  | none => .error (e.missing path fullName)
  | some none => .error (.badRecord ("`" ++ symbol ++ "` returned no type"))
  | some (some r) => r.load path

def ofUnit (u : Code.SourceUnit) : Exports :=
  let name := Code.exportedName u.tree
  let record : TypeRecord :=
    ⟨Utf8.encode name, Utf8.encode u.tree.baseType, Utf8.encode u.model.text, u.program⟩
  ⟨[(typeSymbol name, some record)], some (some [Utf8.encode name])⟩

end Exports

/-- The type with a full name from the library at a path. A library that is copied is read before it
is opened. -/
def load (copied : Bool) (path : String) (file : LibraryFile) (fullName : String) :
    Except LoadError LoadedType :=
  match file with
  | .missing => .error (if copied then .noRead path else .noOpen path)
  | .junk => .error (.noOpen path)
  | .library e => e.find path fullName

end Sigil.Library
