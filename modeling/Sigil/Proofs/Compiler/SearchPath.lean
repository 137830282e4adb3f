import Sigil.Proofs.Compiler.Linking
import Sigil.Proofs.Disk.Parent

/-!
# Search paths

Every search path of a command line is given for a library: a file, or a crate that the registry
adds. It names the directory of that library, and the library's file name behind it is the library
again. A library whose path is a single step has the empty directory, with which its search path
leads nowhere (`search_paths_lead_iff`).
-/

namespace Sigil.Compiler

open Library

def linked (g : Registry) (d : Disk) (files imports : List String) : List String :=
  files ++ (wanted files imports).filterMap (cratePath? g d)

def searchPath (path : String) : String :=
  (if isCratePath path then "dependency=" else "native=") ++ Links.directory path

/-- Whether two paths lead to the same place from the current directory, for which a single dot
stands. -/
def SamePlace (p q : String) : Prop :=
  (Path.components p).filter (· ≠ .here) = (Path.components q).filter (· ≠ .here)

/-- A search path leads to a library: behind its kind it names a directory in which the library's
file name is the library. -/
def LeadsTo (value path : String) : Prop :=
  ∃ dir, (value = "dependency=" ++ dir ∨ value = "native=" ++ dir) ∧ dir ≠ "" ∧
    ∀ name ∈ Path.fileName? path, SamePlace (Path.append dir name) path

theorem kinds_apart (a b : String) : "dependency=" ++ a ≠ "native=" ++ b := by
  intro h
  have := congrArg (fun s : String => s.toList.head?) h
  simp at this

theorem directory_eq_empty_iff {path : String} : Links.directory path = "" ↔ Path.IsBare path := by
  rw [← Path.parent?_eq_some_nil_iff, Links.directory]
  cases Path.parent? path with
  | none => exact ⟨fun h => absurd h (by decide), nofun⟩
  | some dir => exact Option.some_inj.symm

theorem alike_directory {path name : String} (h : Path.fileName? path = some name) :
    Path.alike (Path.append (Links.directory path) name) path = true := by
  rw [Links.directory]
  rcases Path.parent?_cases path with ⟨-, hp⟩ | ⟨dir, c, hdir, -, -⟩
  · have hlast := Path.fileName?_eq_some_iff.1 h
    rcases hp with hp | hp <;> simp [hp] at hlast
  · rw [hdir]
    exact Path.alike_append_parent hdir h

theorem search_mem_linking_iff {g : Registry} {d : Disk} {files imports : List String}
    {value : String} : .search value ∈ linking g d files imports ↔
      ∃ path ∈ linked g d files imports, value = searchPath path := by
  rw [search_mem_linking]
  simp only [linked, List.mem_append, List.mem_filterMap, or_and_right, exists_or]
  refine or_congr_right ?_
  constructor
  · rintro ⟨root, hroot, path, hpath, rfl⟩
    have hcrate := (exists_reference hpath).1
    exact ⟨path, ⟨root, hroot, hpath⟩, by rw [searchPath, if_pos hcrate]⟩
  · rintro ⟨path, ⟨root, hroot, hpath⟩, rfl⟩
    have hcrate := (exists_reference hpath).1
    exact ⟨root, hroot, path, hpath, by rw [searchPath, if_pos hcrate]⟩

theorem leadsTo_searchPath_iff {path : String} :
    LeadsTo (searchPath path) path ↔ ¬ Path.IsBare path := by
  rw [← directory_eq_empty_iff]
  constructor
  · rintro ⟨dir, hvalue, hne, -⟩ hnil
    rw [searchPath, hnil] at hvalue
    split at hvalue
    · rcases hvalue with h | h
      · exact hne ((String.append_right_inj _).1 h).symm
      · exact kinds_apart _ _ h
    · rcases hvalue with h | h
      · exact kinds_apart _ _ h.symm
      · exact hne ((String.append_right_inj _).1 h).symm
  · intro hne
    refine ⟨Links.directory path, ?_, hne, fun name hname => ?_⟩
    · rw [searchPath]
      split
      · exact .inl rfl
      · exact .inr rfl
    · have h := alike_directory hname
      rw [Path.alike, beq_iff_eq] at h
      rw [SamePlace, h]

/-- The search paths of every command line are those of the linked libraries. Each names the
directory of its library, in which the library's file name is the library; it leads there exactly if
the library's path is not a single step. -/
theorem search_paths_lead_iff (s : Settings) (g : Registry) (d : Disk) (assemblyName : String)
    (imports files : List String) (source output : String) :
    let links := linking g d files imports
    arguments s g d assemblyName imports files source output =
      fixedArguments s assemblyName ++ links.flatMap Link.args ++ s.extraArgs ++
        ["-o", output, source] ∧
    (∀ value, .search value ∈ links ↔
      ∃ path ∈ linked g d files imports, value = searchPath path) ∧
    (∀ path ∈ linked g d files imports, ∀ name ∈ Path.fileName? path,
      Path.alike (Path.append (Links.directory path) name) path = true) ∧
    ∀ path ∈ linked g d files imports, LeadsTo (searchPath path) path ↔ ¬ Path.IsBare path := by
  intro links
  exact ⟨arguments_eq .., fun value => search_mem_linking_iff,
    fun path _ name hname => alike_directory hname, fun path _ => leadsTo_searchPath_iff⟩

/-- The name of a file alone gives a search path that leads nowhere. -/
theorem bare_file_leads_nowhere :
    ¬ ∀ (g : Registry) (d : Disk) (files imports : List String), (∀ f ∈ files, f ≠ "") →
      ∀ value, .search value ∈ linking g d files imports →
        ∃ path ∈ linked g d files imports, LeadsTo value path := by
  intro h
  have hsearch : .search ("dependency=" ++ "") ∈ linking ⟨[]⟩ default ["libfoo.rlib"] [] :=
    search_mem_linking_iff.2 ⟨"libfoo.rlib", by decide +kernel, by decide +kernel⟩
  obtain ⟨path, -, dir, hvalue, hne, -⟩ := h ⟨[]⟩ default ["libfoo.rlib"] [] (by simp) _ hsearch
  rcases hvalue with hvalue | hvalue
  · exact hne ((String.append_right_inj _).1 hvalue).symm
  · exact kinds_apart "" dir hvalue

end Sigil.Compiler
