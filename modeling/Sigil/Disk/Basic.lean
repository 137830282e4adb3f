import Sigil.Disk.Path

/-!
# Disks

A file tree is a list of places with what is there; a place is the list of names that lead to it
from the root. The operations keep to what a system does: a name can only be made in a directory
that exists, and what is there already is not made again.
-/

namespace Sigil

open Sigil.Path

/-- The names that lead from the root to a node. -/
abbrev Place := List String

/-- What a system can do with a file. -/
inductive FileKind where
  | data
  /-- A shared library that can be loaded. -/
  | library
  /-- A program that can be run. -/
  | program
  deriving DecidableEq, Repr

inductive FileNode where
  | dir
  | file (kind : FileKind) (bytes : List UInt8)
  deriving DecidableEq, Repr

structure Disk where
  entries : List (Place × FileNode)
  /-- Where relative paths start. -/
  current : Place := []
  deriving Inhabited

inductive DiskError where
  | notFound
  | notADirectory
  | alreadyExists
  | isADirectory
  deriving DecidableEq, Repr

namespace Disk

/-- What is at a place; the root is always there. -/
def node? (d : Disk) (p : Place) : Option FileNode :=
  if p = [] then some .dir else d.entries.lookup p

/-- The place that components lead to from another one. Every place on the way has to be a
directory; the last one need not be there. -/
def walk (d : Disk) (from_ : Place) : List Component → Except DiskError Place
  | [] => .ok from_
  | c :: cs =>
    match d.node? from_ with
    | none => .error .notFound
    | some (.file ..) => .error .notADirectory
    | some .dir =>
      match c with
      | .root => walk d [] cs
      | .here => walk d from_ cs
      | .up => walk d from_.dropLast cs
      | .name s => walk d (from_ ++ [String.ofList s]) cs

def place (d : Disk) (path : String) : Except DiskError Place :=
  d.walk d.current (components path)

/-- What a path names, if it is there. -/
def find? (d : Disk) (path : String) : Option FileNode :=
  if path.isEmpty then none
  else
    match d.place path with
    | .error _ => none
    | .ok p =>
      match d.node? p with
      | some (.file k b) => if namesDirectory path then none else some (.file k b)
      | n => n

def holds (d : Disk) (path : String) : Bool := (d.find? path).isSome

def isDir (d : Disk) (path : String) : Bool := d.find? path == some .dir

def read? (d : Disk) (path : String) : Option (List UInt8) :=
  match d.find? path with
  | some (.file _ b) => some b
  | _ => none

/-- What is set at a place, in place of what was there. -/
def put (d : Disk) (p : Place) (n : FileNode) : Disk :=
  { d with entries := d.entries.filter (·.1 ≠ p) ++ [(p, n)] }

/-- A new directory at the place that components lead to. -/
def makeDirAt (d : Disk) (cs : List Component) : Except DiskError Disk := do
  let p ← d.walk d.current cs
  match d.node? p with
  | some _ => .error .alreadyExists
  | none => .ok (d.put p .dir)

def makeDir (d : Disk) (path : String) : Except DiskError Disk := d.makeDirAt (components path)

def isDirAt (d : Disk) (cs : List Component) : Bool :=
  match d.walk d.current cs with
  | .ok p => d.node? p == some .dir
  | .error _ => false

/-- A directory with every missing directory above it. The disk keeps what was made before an
error. -/
def makeDirsAt (d : Disk) (cs : List Component) : Disk × Except DiskError Unit :=
  if _h : cs = [] then (d, .ok ())
  else
    match d.makeDirAt cs with
    | .ok d => (d, .ok ())
    | .error .notFound =>
      match makeDirsAt d cs.dropLast with
      | (d, .error e) => (d, .error e)
      | (d, .ok ()) =>
        match d.makeDirAt cs with
        | .ok d => (d, .ok ())
        | .error e => (d, if d.isDirAt cs then .ok () else .error e)
    | .error e => (d, if d.isDirAt cs then .ok () else .error e)
termination_by cs.length
decreasing_by
  have := List.length_pos_iff.2 _h
  simp only [List.length_dropLast]
  omega

def makeDirs (d : Disk) (path : String) : Disk × Except DiskError Unit :=
  d.makeDirsAt (components path)

/-- A file with new contents; a file that is there keeps its kind. -/
def write (d : Disk) (path : String) (bytes : List UInt8) : Except DiskError Disk := do
  if path.isEmpty then .error .notFound
  let p ← d.place path
  match d.node? p with
  | some .dir => .error .isADirectory
  | some (.file k _) =>
    if namesDirectory path then .error .notADirectory else .ok (d.put p (.file k bytes))
  | none => if namesDirectory path then .error .isADirectory else .ok (d.put p (.file .data bytes))

/-- A file of a kind put at a path, in directories that are made if they are missing. -/
def install (d : Disk) (kind : FileKind) (path : String) (bytes : List UInt8) : Disk :=
  let d := (d.makeDirs ((Path.parent? path).getD ".")).1
  match d.place path with
  | .ok p => d.put p (.file kind bytes)
  | .error _ => d

/-- Whether a place is at or below another one. -/
def isWithin (p q : Place) : Bool := q.isPrefixOf p

def eraseTree (d : Disk) (p : Place) : Disk :=
  { d with entries := d.entries.filter (!isWithin ·.1 p) }

def list (d : Disk) (p : Place) : List (String × FileNode) :=
  d.entries.filterMap fun (q, n) =>
    match q.getLast? with
    | some name => if q.dropLast = p then some (name, n) else none
    | none => none

/-- The nodes below a place, with the names that lead to them from there. -/
def below (d : Disk) (p : Place) : List (Place × FileNode) :=
  d.entries.filterMap fun (q, n) =>
    if isWithin q p && q ≠ p then some (q.drop p.length, n) else none

/-- Everything below a path, by the path that leads there, directories with a slash at their end. -/
def contents (d : Disk) (path : String) : List (String × Option (List UInt8)) :=
  match d.place path with
  | .ok p =>
    (d.below p).map fun (q, n) =>
      match n with
      | .dir => ("/".intercalate q ++ "/", none)
      | .file _ bytes => ("/".intercalate q, some bytes)
  | .error _ => []

def count (d : Disk) (path : String) : Nat :=
  match d.place path with
  | .ok p => (d.list p).length
  | .error _ => 0

def removeEmpty (d : Disk) (p : Place) : Disk :=
  if d.node? p = some .dir ∧ d.list p = [] then
    { d with entries := d.entries.filter (·.1 ≠ p) }
  else d

/-- A directory taken away: its files, its subdirectories with all that is in them, and then itself.
Nothing happens to a file. -/
def removeDir (d : Disk) (p : Place) : Disk :=
  if d.node? p = some .dir then
    let erase (d : Disk) (e : String × FileNode) : Disk :=
      match e.2 with
      | .dir => d
      | .file .. => { d with entries := d.entries.filter (·.1 ≠ p ++ [e.1]) }
    let eraseDir (d : Disk) (e : String × FileNode) : Disk :=
      match e.2 with
      | .dir => d.eraseTree (p ++ [e.1])
      | .file .. => d
    (((d.list p).foldl eraseDir ((d.list p).foldl erase d))).removeEmpty p
  else d

end Disk
end Sigil
