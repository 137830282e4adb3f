import Sigil.Disk.Basic
import Sigil.Library.FileName

/-!
# Modules

A module is a library that a process knows: its name, its version, where it is, and whether it is
only there while the process runs. `Module.describe` tells all this from a path, `Module.open?` also
loads a shared library, and `readMaps` finds the modules in a process's memory map.
-/

namespace Sigil.Library

open Text

structure Module where
  name : String
  version : Version
  location : Option String
  /-- Whether the library is not backed by a file that stays. -/
  isTemporary : Bool
  /-- Whether the library is loaded. -/
  isOpen : Bool := false
  deriving DecidableEq, Repr, Inhabited

/-- What stands behind a path whose file was deleted. -/
def deletedMark : List Char := " (deleted)".toList

theorem deletedMark_ne_nil : deletedMark ≠ [] := by decide

/-- Whether two locations are the same place, or both missing. -/
def sameLocation : Option String → Option String → Bool
  | some p, some q => Path.alike p q
  | none, none => true
  | _, _ => false

namespace Module

/-- Whether two modules are the same one, loaded or not. -/
def same (a b : Module) : Bool :=
  a.name == b.name && a.version == b.version && sameLocation a.location b.location &&
    a.isTemporary == b.isTemporary

/-- The module at a path. Files in memory, deleted files and files that are not there are
temporary. -/
def describe (d : Disk) (path : String) : Module :=
  let cut := before? deletedMark path.toList
  let location := (cut.map String.ofList).getD path
  let inMemory :=
    startsWith path.toList "memfd:".toList || startsWith path.toList "/memfd:".toList
  let (name, version) := readFileName ((Path.fileName? location).getD "")
  { name, version, location := some location
    isTemporary := cut.isSome || inMemory || !d.holds location }

def canLoad (d : Disk) (path : String) : Bool :=
  match d.find? path with
  | some (.file .library _) => true
  | _ => false

/-- The module at a path, loaded if it is a shared library; `none` if loading fails. -/
def open? (d : Disk) (path : String) : Option Module :=
  let m := describe d path
  if !isSharedName ((Path.fileName? path).getD "") then some m
  else if canLoad d path then some { m with isOpen := true }
  else none

end Module

/-! ## Memory maps -/

/-- What follows some fields of a line, each of which ends at a blank. -/
def afterFields? : (count : Nat) → List Char → Option (List Char)
  | 0, s => some s
  | n + 1, s =>
    match (trimStart s).dropWhile (!isBlank ·) with
    | [] => none
    | r => afterFields? n r

/-- The path in a line of a memory map, which follows five fields. -/
def mapPath? (line : List Char) : Option (List Char) :=
  match afterFields? 5 line with
  | some r => if (trim r).isEmpty then none else some (trim r)
  | none => none

def dropMarks (s : List Char) : List Char :=
  match _h : before? deletedMark s with
  | some r => dropMarks r
  | none => s
termination_by s.length
decreasing_by
  obtain ⟨u, hu, rfl⟩ := Option.map_eq_some_iff.1 _h
  have := length_of_after? hu
  have : 0 < deletedMark.length := List.length_pos_iff.2 deletedMark_ne_nil
  simp only [List.length_reverse] at *
  omega

/-- Whether a path of a memory map names a shared library. -/
def isMappedLibrary (path : List Char) : Bool :=
  (startsWith path ['/'] || startsWith path "memfd:".toList) &&
    isSharedName (String.ofList ((fields '/' (dropMarks path)).getLast?.getD []))

/-- The paths of shared libraries in a memory map, each where it occurs first. -/
def mappedPaths (maps : String) : List (List Char) :=
  (((lines maps.toList).filterMap mapPath?).filter isMappedLibrary).eraseDups

def readMaps (d : Disk) (maps : String) : List Module :=
  (mappedPaths maps).map fun p => Module.describe d (String.ofList p)

end Sigil.Library
