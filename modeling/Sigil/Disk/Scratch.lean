import Sigil.Disk.Basic

/-!
# Scratch directories

A directory of its own for one compilation. `createNamed` takes names from a supply until one is
free; `Artifacts.dispose` removes the directory, at most once.
-/

namespace Sigil

def scratchStart : String := "quill_"

/-- The name of a scratch directory: the start and an identifier of 32 hexadecimal digits. -/
def scratchName (id : Nat) : String :=
  let digits := Nat.toDigits 16 id
  scratchStart ++ String.ofList (List.replicate (32 - digits.length) '0' ++ digits)

/-- How many names are tried. -/
def scratchAttempts : Nat := 10

namespace Disk

/-- A directory under `root` with the first free name from number `k` on. -/
def createFrom (d : Disk) (root : String) (names : Nat → String) :
    (attempts k : Nat) → Except DiskError (Disk × String)
  | 0, _ => .error .alreadyExists
  | n + 1, k =>
    let path := Path.append root (names k)
    match d.makeDir path with
    | .ok d => .ok (d, path)
    | .error .alreadyExists => createFrom d root names n (k + 1)
    | .error e => .error e

/-- A new directory under `root`, which is made if it is missing. -/
def createNamed (d : Disk) (root : String) (names : Nat → String) :
    Disk × Except DiskError String :=
  match d.makeDirs root with
  | (d, .error e) => (d, .error e)
  | (d, .ok ()) =>
    match d.createFrom root names scratchAttempts 0 with
    | .ok (d, path) => (d, .ok path)
    | .error e => (d, .error e)

/-- The directory at a path taken away, if one is there. -/
def removePath (d : Disk) (path : String) : Disk :=
  match d.place path with
  | .ok p => d.removeDir p
  | .error _ => d

end Disk

/-- What a compilation leaves: its source and its scratch directory. -/
structure Artifacts where
  source : Option String
  folder : Option String
  disposed : Bool := false
  deriving DecidableEq, Repr, Inhabited

/-- Removes the directory, unless that was done before. -/
def Artifacts.dispose (a : Artifacts) (d : Disk) : Artifacts × Disk :=
  if a.disposed then (a, d)
  else ({ a with disposed := true }, a.folder.elim d d.removePath)

theorem Artifacts.disposed_dispose (a : Artifacts) (d : Disk) :
    (a.dispose d).1.disposed = true := by
  unfold dispose
  split <;> simp_all

theorem Artifacts.dispose_dispose (a : Artifacts) (d e : Disk) :
    (a.dispose d).1.dispose e = ((a.dispose d).1, e) := by
  simp [dispose.eq_def (a.dispose d).1, disposed_dispose]

end Sigil
