import Sigil.Text.Pieces

/-!
# Paths

A path is a text with slashes. Two paths are alike when they have the same components, so doubled
slashes, single dots inside and a slash at the end do not matter; as texts they stay apart.
-/

namespace Sigil.Path

open Text

inductive Component where
  | root
  /-- A single dot at the start. -/
  | here
  | up
  | name (s : List Char)
  deriving DecidableEq, Repr

inductive Lead where
  | root
  | here
  | none
  deriving DecidableEq, Repr

/-- How a path starts, and its segments behind that. -/
def split (p : List Char) : Lead × List (List Char) :=
  match fields '/' p with
  | [] => (.none, [])
  | [s] => if s = ['.'] then (.here, []) else (.none, [s])
  | s :: r => if s = [] then (.root, r) else if s = ['.'] then (.here, r) else (.none, s :: r)

/-- Whether a segment behind the start is no step: it is empty or a single dot. -/
def isIdle (s : List Char) : Bool := s.isEmpty || s == ['.']

def Component.ofSegment (s : List Char) : Component := if s = ['.', '.'] then .up else .name s

def Lead.components : Lead → List Component
  | .root => [.root]
  | .here => [.here]
  | .none => []

def components (p : String) : List Component :=
  let (lead, body) := split p.toList
  lead.components ++ (body.filter (!isIdle ·)).map Component.ofSegment

def alike (p q : String) : Bool := components p == components q

/-- The rank of a component among those of another kind. -/
def Component.rank : Component → Nat
  | .root => 0
  | .here => 1
  | .up => 2
  | .name _ => 3

def Component.le (a b : Component) : Bool :=
  match a, b with
  | .name s, .name t => String.ofList s ≤ String.ofList t
  | a, b => a.rank ≤ b.rank

def leComponents : List Component → List Component → Bool
  | [], _ => true
  | _ :: _, [] => false
  | a :: as, b :: bs => if a = b then leComponents as bs else a.le b

def le (p q : String) : Bool := leComponents (components p) (components q)

/-- The name that a path ends with. -/
def fileName? (p : String) : Option String :=
  match (components p).getLast? with
  | some (.name s) => some (String.ofList s)
  | _ => none

def assemble (lead : Lead) (body : List (List Char)) : List Char :=
  match lead with
  | .root => '/' :: join ['/'] body
  | .here => join ['/'] (['.'] :: body)
  | .none => join ['/'] body

def dropIdle (body : List (List Char)) : List (List Char) :=
  (body.reverse.dropWhile isIdle).reverse

/-- A path without its last step; the empty path and the root have none. -/
def parent? (p : String) : Option String :=
  let (lead, body) := split p.toList
  match (dropIdle body).reverse with
  | [] => if lead = .here then some "" else none
  | _ :: r => some (String.ofList (assemble lead (dropIdle r.reverse)))

/-- A path behind another one; an absolute path stands alone. -/
def append (p q : String) : String :=
  if startsWith q.toList ['/'] then q
  else if p.isEmpty || endsWith p.toList ['/'] then p ++ q
  else p ++ "/" ++ q

/-- Whether a path says at its end that it names a directory. -/
def namesDirectory (p : String) : Bool :=
  endsWith p.toList ['/'] || endsWith p.toList ['/', '.'] || p == "."

example : components "/a//./b/" = components "/a/b" := by decide +kernel

example : parent? "a//b/" = some "a" ∧ parent? "b" = some "" ∧ parent? "/" = none := by
  decide +kernel

end Sigil.Path
