import Sigil.Library.Module

/-!
# References

What generated code can be compiled against: a file, a module, a stream or bytes. A file and a
module at that file are the same reference; two streams are the same only if they are one stream.
-/

namespace Sigil.Library

/-- A named stream; the number tells streams apart. -/
structure Stream where
  name : String
  id : Nat
  deriving DecidableEq, Repr

inductive Reference where
  | file (path : String)
  | module (m : Module)
  | stream (s : Stream)
  | bytes (b : List UInt8)
  deriving DecidableEq, Repr

inductive ReferenceError where
  | noLocation (name : String)
  | stream
  | bytes
  deriving DecidableEq, Repr

def ReferenceError.message : ReferenceError → String
  | noLocation name => "module `" ++ name ++ "` has no location on disk"
  | stream => "stream references cannot be resolved to a file"
  | bytes => "byte references cannot be resolved to a file"

/-- A piece of what a reference is hashed by. A path counts by its components and a stream by its
address. -/
inductive Datum where
  | tag (n : UInt8)
  | path (components : List Path.Component)
  | text (s : String)
  | version (v : Version)
  | address (id : Nat)
  | bytes (b : List UInt8)
  deriving DecidableEq, Repr

namespace Reference

def toFile : Reference → Except ReferenceError String
  | file path => .ok path
  | module m => m.location.elim (.error (.noLocation m.name)) .ok
  | stream _ => .error .stream
  | bytes _ => .error .bytes

/-- The name of the library that a reference provides. -/
def identity? : Reference → Option String
  | file path => (Path.fileName? path).map fun n => (readFileName n).1
  | module m => some m.name
  | stream s => some s.name
  | bytes _ => none

def same : Reference → Reference → Bool
  | file p, file q => Path.alike p q
  | file p, module m => sameLocation m.location (some p)
  | module m, file p => sameLocation m.location (some p)
  | module m, module n => m.same n
  | stream s, stream t => s.id == t.id
  | bytes a, bytes b => a == b
  | _, _ => false

def path? : Reference → Option String
  | file path => some path
  | module m => m.location
  | stream _ => none
  | bytes _ => none

/-- What a reference is hashed by, in this order. Whatever is on disk is hashed by its place alone,
because a file is the same as a module there. -/
def hashed (r : Reference) : List Datum :=
  match r.path? with
  | some path => [.tag 0, .path (Path.components path)]
  | none =>
    match r with
    | module m => [.tag 1, .text m.name, .version m.version]
    | stream s => [.tag 2, .address s.id]
    | bytes b => [.tag 3, .bytes b]
    | file _ => []

def isIn (r : Reference) (rs : List Reference) : Bool := rs.any (·.same r)

/-- References appended, each unless it is there already. -/
def appendNew (rs : List Reference) : List Reference → List Reference
  | [] => rs
  | r :: more => appendNew (if r.isIn rs then rs else rs ++ [r]) more

end Reference

/-! ## Streams -/

/-- What is left in each stream. -/
abbrev Streams := List (Nat × List UInt8)

/-- What is left in a stream, which is empty afterwards. -/
def Streams.readAll (ss : Streams) (s : Stream) : List UInt8 × Streams :=
  ((ss.lookup s.id).getD [], ss.map fun (id, b) => if id = s.id then (id, []) else (id, b))

end Sigil.Library
