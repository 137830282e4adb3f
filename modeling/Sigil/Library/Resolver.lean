import Sigil.Library.Reference
import Sigil.Disk.Scratch
import Sigil.Order.Keyed
import Sigil.Text.Hex

/-!
# Resolvers

Which references a compilation is given: the newest of each library that the process knows, or a
fixed list. Either way the references of the compiler itself follow unless they are there already.
-/

namespace Sigil.Library

open Text

/-- What the path of a library of templates contains. -/
def templateMark : List Char := "CompiledTemplates.Dynamic".toList

def isScratchName (name : List Char) : Bool :=
  match after? scratchStart.toList name with
  | some id => id.length == 32 && id.all fun c => (hexValue? c).isSome
  | none => false

def isTemplateLibrary (location : String) : Bool :=
  contains templateMark location.toList ||
    (Path.components location).any fun
      | .name s => isScratchName s
      | _ => false

/-- Whether a module can stand for its library. -/
def isEligible (m : Module) : Bool :=
  match m.location with
  | some l => !m.isTemporary && !isTemplateLibrary l
  | none => false

/-- A module entered under its name, unless a version at least as new is there. -/
def putLatest (es : List (String × Module)) (m : Module) : List (String × Module) :=
  match Keyed.get? m.name es with
  | some n => if n.version.compare m.version = .lt then Keyed.put m.name m es else es
  | none => Keyed.put m.name m es

/-- The newest eligible module of each name, by name. -/
def latest (ms : List Module) : List (String × Module) :=
  (ms.filter isEligible).foldl putLatest []

def latestReferences (ms : List Module) (more : List Reference) : List Reference :=
  Reference.appendNew ((latest ms).filterMap fun (_, m) => m.location.map .file) more

/-- A fixed list, and further references. -/
def fixedReferences (rs more : List Reference) : List Reference :=
  Reference.appendNew rs more

end Sigil.Library
