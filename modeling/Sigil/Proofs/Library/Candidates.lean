import Sigil.Proofs.Library.Registry

/-!
# Candidates for a name

A registry answers a name with the first of its candidates: the modules with the name, then the
files with the name that can be opened, by their paths. Other references under the name do not
count, and those behind the first candidate do not matter (`bind_location_resolve?`).
-/

namespace Sigil.Library

open Text

/-- A path without a mark at its end that its file was deleted. -/
def undeleted (path : String) : String :=
  ((before? deletedMark path.toList).map String.ofList).getD path

theorem undeleted_cases (path : String) :
    path = undeleted path ∨ path = undeleted path ++ String.ofList deletedMark := by
  unfold undeleted
  cases h : before? deletedMark path.toList with
  | none => exact .inl rfl
  | some s =>
    refine .inr ?_
    rw [Option.map_some, Option.getD_some, ← String.ofList_append, ← before?_eq_some_iff.1 h,
      String.ofList_toList]

theorem Module.describe_eq (d : Disk) (path : String) :
    Module.describe d path =
      let file := readFileName ((Path.fileName? (undeleted path)).getD "")
      { name := file.1, version := file.2, location := some (undeleted path)
        isTemporary := (before? deletedMark path.toList).isSome ||
          (startsWith path.toList "memfd:".toList || startsWith path.toList "/memfd:".toList) ||
          !d.holds (undeleted path) } := by
  rw [Module.describe, undeleted]

theorem Module.location_describe (d : Disk) (path : String) :
    (Module.describe d path).location = some (undeleted path) := by
  rw [Module.describe_eq]

theorem Module.location_of_open? {d : Disk} {path : String} {m : Module}
    (h : Module.open? d path = some m) : m.location = some (undeleted path) := by
  rw [← Module.location_describe d path]
  unfold Module.open? at h
  generalize Module.describe d path = k at h ⊢
  simp only at h
  split at h
  · rw [Option.some.inj h]
  · split at h
    · rw [← Option.some.inj h]
    · cases h

namespace Reference

/-- Where the library is that a reference answers with. -/
def location? : Reference → Option String
  | file path => some (undeleted path)
  | module m => m.location
  | stream _ => none
  | bytes _ => none

/-- Whether a reference can answer: a module, or a file that can be opened. -/
def answers (d : Disk) : Reference → Bool
  | file path => (Module.open? d path).isSome
  | module _ => true
  | stream _ => false
  | bytes _ => false

def isModule (name : String) : Reference → Bool
  | module m => m.name == name
  | _ => false

theorem location?_of_toFile {r : Reference} {path : String} (h : r.location? = some path) :
    r.toFile = .ok path ∨ r.toFile = .ok (path ++ String.ofList deletedMark) := by
  cases r with
  | file q =>
    cases h
    exact (undeleted_cases q).imp (congrArg Except.ok) (congrArg Except.ok)
  | module m =>
    rw [location?] at h
    rw [toFile, h]
    exact .inl rfl
  | stream _ | bytes _ => cases h

end Reference

namespace Registry

variable {g : Registry} {d : Disk} {name : String}

/-- The references that can answer a name, in the order in which they are tried. -/
def candidates (g : Registry) (d : Disk) (name : String) : List Reference :=
  g.entries.filter (Reference.isModule name) ++
    ((g.filesNamed name).filter fun p => (Module.open? d p).isSome).map .file

theorem mem_filesNamed {path : String} : path ∈ g.filesNamed name ↔
    .file path ∈ g.entries ∧ (Reference.file path).identity? = some name := by
  rw [filesNamed, List.mem_mergeSort, List.mem_filterMap]
  constructor
  · rintro ⟨r, hr, h⟩
    cases r with
    | file q =>
      obtain ⟨hname, hpath⟩ := Option.ite_none_right_eq_some.1 h
      rw [← Option.some.inj hpath]
      exact ⟨hr, hname⟩
    | module _ | stream _ | bytes _ => cases h
  · rintro ⟨hr, hname⟩
    exact ⟨_, hr, if_pos hname⟩

theorem mem_candidates {r : Reference} : r ∈ g.candidates d name ↔
    r ∈ g.entries ∧ r.identity? = some name ∧ r.answers d = true := by
  rw [candidates, List.mem_append, List.mem_filter, List.mem_map]
  simp only [List.mem_filter, mem_filesNamed]
  cases r with
  | file p =>
    simp only [Reference.isModule, Reference.answers, Bool.false_eq_true, and_false, false_or,
      Reference.file.injEq, exists_eq_right]
    exact and_assoc
  | module m => simp [Reference.isModule, Reference.answers, Reference.identity?]
  | stream _ => simp [Reference.isModule, Reference.answers]
  | bytes _ => simp [Reference.isModule, Reference.answers]

theorem find?_isModule (name : String) :
    g.entries.find? (Reference.isModule name) = (g.module? name).map .module := by
  unfold module?
  induction g.entries with
  | nil => rfl
  | cons r rs ih =>
    rw [List.find?_cons, List.findSome?_cons]
    cases r with
    | module m =>
      by_cases h : m.name = name
      · simp only [Reference.isModule, h, beq_self_eq_true, if_true, Option.map_some]
      · have hne : (m.name == name) = false := beq_false_of_ne h
        simpa only [Reference.isModule, hne, h, if_false] using ih
    | file _ | stream _ | bytes _ => exact ih

/-- The module that a registry answers with is where its first candidate is. -/
theorem bind_location_resolve? :
    (g.resolve? d name).bind (·.location) = (g.candidates d name).head?.bind Reference.location? := by
  have hhead : (g.candidates d name).head? = ((g.module? name).map Reference.module).or
      (((g.filesNamed name).find? fun p => (Module.open? d p).isSome).map .file) := by
    rw [candidates, List.head?_append, List.head?_filter, find?_isModule, List.head?_map,
      List.head?_filter]
  have hfiles : ∀ files : List String,
      (files.findSome? (Module.open? d)).bind (·.location) =
        ((files.find? fun p => (Module.open? d p).isSome).map Reference.file).bind
          Reference.location? := by
    intro files
    induction files with
    | nil => rfl
    | cons p files ih =>
      rw [List.findSome?_cons, List.find?_cons]
      cases hp : Module.open? d p with
      | none => exact ih
      | some m => exact Module.location_of_open? hp
  rw [hhead, resolve?]
  cases g.module? name with
  | none => exact hfiles (g.filesNamed name)
  | some m => rfl

end Registry
end Sigil.Library
