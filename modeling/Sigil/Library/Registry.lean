import Sigil.Library.Reference

/-!
# Registries

Every reference that was ever handed to a compiler. Of references that are the same the first one
stays. `Registry.resolve?` finds a module by its name: one that is registered, or else the first
file with that name that can be opened.
-/

namespace Sigil.Library

structure Registry where
  entries : List Reference := []
  deriving Inhabited

namespace Registry

def contains (g : Registry) (r : Reference) : Bool := r.isIn g.entries

/-- A reference added unless it is there. -/
def add (g : Registry) (r : Reference) : Registry :=
  if g.contains r then g else ⟨g.entries ++ [r]⟩

def addAll (g : Registry) (rs : List Reference) : Registry := rs.foldl add g

def size (g : Registry) : Nat := g.entries.length

def module? (g : Registry) (name : String) : Option Module :=
  g.entries.findSome? fun
    | .module m => if m.name = name then some m else none
    | _ => none

/-- The registered files that provide a name, in the order of their paths. -/
def filesNamed (g : Registry) (name : String) : List String :=
  (g.entries.filterMap fun r =>
    match r with
    | .file p => if r.identity? = some name then some p else none
    | _ => none).mergeSort Path.le

def resolve? (g : Registry) (d : Disk) (name : String) : Option Module :=
  match g.module? name with
  | some m => some m
  | none => (g.filesNamed name).findSome? (Module.open? d)

theorem contains_add_of_contains {g : Registry} {r s : Reference} (h : g.contains r = true) :
    (g.add s).contains r = true := by
  unfold add
  split
  · exact h
  · simp only [contains, Reference.isIn, List.any_append, Bool.or_eq_true] at h ⊢
    exact .inl h

theorem contains_addAll_of_contains {g : Registry} {r : Reference} {rs : List Reference}
    (h : g.contains r = true) : (g.addAll rs).contains r = true := by
  induction rs generalizing g with
  | nil => exact h
  | cons s rs ih => exact ih (contains_add_of_contains h)

end Registry
end Sigil.Library
