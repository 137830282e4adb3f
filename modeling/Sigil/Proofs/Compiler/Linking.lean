import Mathlib.Data.List.Basic
import Mathlib.Data.List.Induction
import Sigil.Compiler.Arguments
import Sigil.Proofs.Library.Candidates
import Sigil.Proofs.Text.Occurrence
import Sigil.Proofs.Text.Trim

/-!
# Entries of the linking part

The linking part of a command line is a list of entries, search paths and crates that are bound to
their files. `linking` says which: those of the files, then those of the crates that imports start
with, no file provides and the registry has; of entries for the same search path or the same crate
the first one stays. The command line is written from these entries (`arguments_eq`). The main
statements say what they are (`linking_consistent`) and when a crate of the registry is among them
(`crate_iff_not_hidden`).
-/

namespace Sigil.Compiler

open Library Text

/-! ## Entries -/

inductive Link where
  | search (value : String)
  | crate (name path : String)
  deriving DecidableEq, Repr

namespace Link

def args : Link → List String
  | search value => ["-L", value]
  | crate name path => ["--extern", name ++ "=" ++ path]

/-- What an entry is for. -/
inductive Key where
  | path (value : String)
  | crate (name : String)
  deriving DecidableEq

def key : Link → Key
  | search value => .path value
  | crate name _ => .crate name

/-- An entry behind others, unless one with its key is there. -/
def push (es : List Link) (e : Link) : List Link :=
  if e.key ∈ es.map key then es else es ++ [e]

def firsts (es : List Link) : List Link := es.foldl push []

theorem push_of_mem {es : List Link} {e : Link} (h : e.key ∈ es.map key) : push es e = es :=
  if_pos h

theorem push_of_notMem {es : List Link} {e : Link} (h : e.key ∉ es.map key) :
    push es e = es ++ [e] := if_neg h

theorem firsts_append (es fs : List Link) : firsts (es ++ fs) = fs.foldl push (firsts es) :=
  List.foldl_append

theorem mem_push {es : List Link} {e x : Link} :
    x ∈ push es e ↔ x ∈ es ∨ x = e ∧ e.key ∉ es.map key := by
  unfold push
  split
  · rename_i h
    simp [h]
  · rename_i h
    simp [h]

theorem mem_keys_push {es : List Link} {e : Link} {k : Key} :
    k ∈ (push es e).map key ↔ k ∈ es.map key ∨ k = e.key := by
  unfold push
  split
  · rename_i h
    refine ⟨.inl, ?_⟩
    rintro (hk | rfl)
    · exact hk
    · exact h
  · simp [eq_comm]

theorem mem_keys_firsts {es : List Link} {k : Key} :
    k ∈ (firsts es).map key ↔ k ∈ es.map key := by
  induction es using List.reverseRecOn with
  | nil => exact Iff.rfl
  | append_singleton es e ih =>
    rw [firsts_append, List.foldl_cons, List.foldl_nil, mem_keys_push, ih]
    simp [eq_comm]

theorem nodup_keys_firsts (es : List Link) : ((firsts es).map key).Nodup := by
  induction es using List.reverseRecOn with
  | nil => exact List.Pairwise.nil
  | append_singleton es e ih =>
    rw [firsts_append, List.foldl_cons, List.foldl_nil, push]
    split
    · exact ih
    · rename_i h
      rw [List.map_append, List.nodup_append]
      refine ⟨ih, List.pairwise_singleton _ _, fun a ha b hb => ?_⟩
      rintro rfl
      rw [List.map_singleton, List.mem_singleton] at hb
      exact h (hb ▸ ha)

theorem mem_firsts_iff {es : List Link} {x : Link} :
    x ∈ firsts es ↔ es.find? (·.key = x.key) = some x := by
  induction es using List.reverseRecOn with
  | nil => simp [firsts]
  | append_singleton es e ih =>
    rw [firsts_append, List.foldl_cons, List.foldl_nil, mem_push, mem_keys_firsts, ih,
      List.find?_append, Option.or_eq_some_iff, List.find?_eq_none]
    refine or_congr_right ?_
    constructor
    · rintro ⟨rfl, h⟩
      exact ⟨fun y hy hkey => h (by simpa using ⟨y, hy, of_decide_eq_true hkey⟩), by simp⟩
    · rintro ⟨hnone, hlast⟩
      obtain ⟨hkey, hx⟩ : e.key = x.key ∧ e = x := by simpa using hlast
      refine ⟨hx.symm, fun h => ?_⟩
      obtain ⟨y, hy, hykey⟩ := List.mem_map.1 h
      exact hnone y hy (by simpa [← hkey] using hykey)

/-- A search path has no other entry than its own. -/
theorem search_mem_firsts {es : List Link} {value : String} :
    .search value ∈ firsts es ↔ .search value ∈ es := by
  rw [mem_firsts_iff]
  refine ⟨List.mem_of_find?_eq_some, fun h => ?_⟩
  have hsome : (es.find? (·.key = key (.search value))).isSome = true := by
    rw [List.find?_isSome]
    exact ⟨.search value, h, decide_eq_true rfl⟩
  obtain ⟨x, hx⟩ := Option.isSome_iff_exists.1 hsome
  have hkey : x.key = key (.search value) := by simpa using List.find?_some hx
  rw [hx]
  cases x with
  | search w => rw [Key.path.inj hkey]
  | crate => cases hkey

end Link

/-! ## Files and crates -/

theorem exists_dropSeparators (s : List Char) :
    ∃ n, s = (List.replicate n pathSeparator).flatten ++ dropSeparators s := by
  fun_induction dropSeparators s with
  | case1 r ih =>
    obtain ⟨n, hn⟩ := ih
    refine ⟨n + 1, ?_⟩
    rw [List.replicate_succ, List.flatten_cons, List.append_assoc, ← hn]
    rfl
  | case2 s => exact ⟨0, rfl⟩

/-- The first piece of a path reaches to the next separator. -/
theorem exists_headD_pieces (s : List Char) :
    let front := (pieces pathSeparator pathSeparator_ne_nil s).headD []
    ¬ pathSeparator <:+: front ∧ ∃ rest, s = front ++ rest ∧
      (rest = [] ∨ pathSeparator <+: rest) := by
  cases h : cut? pathSeparator s with
  | none =>
    rw [pieces_of_none pathSeparator_ne_nil h]
    exact ⟨not_isInfix_of_cut? h, [], (List.append_nil s).symm, .inl rfl⟩
  | some ab =>
    obtain ⟨a, b⟩ := ab
    have hpieces := pieces_of_some pathSeparator_ne_nil h
    have ha : a ∈ pieces pathSeparator pathSeparator_ne_nil s := by
      rw [hpieces]
      exact List.mem_cons_self
    rw [hpieces]
    exact ⟨not_isInfix_of_mem_pieces pathSeparator_ne_nil ha, pathSeparator ++ b,
      (eq_of_cut? h).trans (List.append_assoc ..), .inr (List.prefix_append _ _)⟩

/-- An import starts with the name of its crate, behind separators and between blanks; the name has
no blank at its ends and reaches to the next separator. -/
theorem crateRoot_spec (path : String) :
    IsTrimmed (crateRoot path).toList ∧ ∃ n before after rest,
      IsBlankText before ∧ IsBlankText after ∧ (rest = [] ∨ pathSeparator <+: rest) ∧
      ¬ pathSeparator <:+: before ++ (crateRoot path).toList ++ after ∧
      trim path.toList = (List.replicate n pathSeparator).flatten ++
        (before ++ (crateRoot path).toList ++ after ++ rest) := by
  obtain ⟨n, hn⟩ := exists_dropSeparators (trim path.toList)
  obtain ⟨hfirst, rest, hrest, hend⟩ := exists_headD_pieces (dropSeparators (trim path.toList))
  have hroot : trim ((pieces pathSeparator pathSeparator_ne_nil
      (dropSeparators (trim path.toList))).headD []) = (crateRoot path).toList :=
    String.toList_ofList.symm
  obtain ⟨htrimmed, before, after, hbefore, hafter, hfront⟩ := trim_eq_iff.1 hroot
  refine ⟨htrimmed, n, before, after, rest, hbefore, hafter, hend, ?_, ?_⟩
  · rw [← hfront]
    exact hfirst
  · rw [← hfront, ← hrest]
    exact hn
theorem mem_crateRoots {imports : List String} {root : String} : root ∈ crateRoots imports ↔
    (∃ x ∈ imports, crateRoot x = root) ∧ root ≠ "" ∧ root ∉ implicitCrates := by
  rw [crateRoots, NameSet.mem_ofList, List.mem_filter, List.mem_map]
  simp

/-- The crate that a file is, if its name says that it is one. -/
def crateName? (path : String) : Option String :=
  if isCratePath path then (Reference.file path).identity? else none

theorem exists_crateName? {path : String} (h : isCratePath path = true) :
    ∃ name, (Reference.file path).identity? = some name ∧ crateName? path = some name := by
  unfold isCratePath at h
  obtain ⟨n, hn⟩ : ∃ n, Path.fileName? path = some n := by
    cases hn : Path.fileName? path with
    | none => simp [hn] at h
    | some n => exact ⟨n, rfl⟩
  have hname : (Reference.file path).identity? = some (readFileName n).1 := by
    rw [Reference.identity?, hn, Option.map_some]
  exact ⟨_, hname, (if_pos h).trans hname⟩

def Link.ofFile (path : String) : (name : Option String) → List Link
  | some n => [.search ("dependency=" ++ Links.directory path), .crate n path]
  | none => [.search ("native=" ++ Links.directory path)]

def cratePath? (g : Registry) (d : Disk) (name : String) : Option String :=
  ((g.resolve? d name).bind (·.location)).filter isCratePath

def Link.ofRoot (g : Registry) (d : Disk) (root : String) : List Link :=
  (cratePath? g d root).elim [] fun path => Link.ofFile path (some root)

/-- The crates that imports start with and that no file provides. -/
def wanted (files imports : List String) : List String :=
  (crateRoots imports).toList.filter fun root => !files.any (crateName? · == some root)

def linking (g : Registry) (d : Disk) (files imports : List String) : List Link :=
  Link.firsts (files.flatMap (fun f => Link.ofFile f (crateName? f)) ++
    (wanted files imports).flatMap (Link.ofRoot g d))

/-! ## The command line -/

namespace Links

/-- The entries that a linking part has been made of. -/
structure Lists (l : Links) (es : List Link) : Prop where
  args : l.args = es.flatMap Link.args
  searchPaths : ∀ v, v ∈ l.searchPaths ↔ .path v ∈ es.map Link.key
  externs : ∀ n, n ∈ l.externs ↔ .crate n ∈ es.map Link.key

section

variable {l : Links} {es : List Link}

theorem Lists.search (h : l.Lists es) (value : String) :
    (l.search value).Lists (Link.push es (.search value)) := by
  by_cases hv : value ∈ l.searchPaths
  · rw [Links.search, if_pos (List.contains_iff_mem.2 hv),
      Link.push_of_mem ((h.searchPaths value).1 hv)]
    exact h
  · rw [Links.search, if_neg (mt List.contains_iff_mem.1 hv),
      Link.push_of_notMem (mt (h.searchPaths value).2 hv)]
    refine ⟨?_, fun v => ?_, fun n => ?_⟩
    · rw [List.flatMap_append, ← h.args]
      rfl
    · rw [List.mem_cons, h.searchPaths]
      simp [Link.key, or_comm]
    · rw [h.externs]
      simp [Link.key]

theorem Lists.bind (h : l.Lists es) (name path : String) :
    (l.bind name path).Lists (Link.push es (.crate name path)) := by
  by_cases hn : name ∈ l.externs
  · rw [Links.bind, if_pos (List.contains_iff_mem.2 hn),
      Link.push_of_mem ((h.externs name).1 hn)]
    exact h
  · rw [Links.bind, if_neg (mt List.contains_iff_mem.1 hn),
      Link.push_of_notMem (mt (h.externs name).2 hn)]
    refine ⟨?_, fun v => ?_, fun n => ?_⟩
    · rw [List.flatMap_append, ← h.args]
      rfl
    · rw [h.searchPaths]
      simp [Link.key]
    · rw [List.mem_cons, h.externs]
      simp [Link.key, or_comm]

theorem Lists.add (h : l.Lists (Link.firsts es)) (path : String) (name : Option String) :
    (l.add path name).Lists (Link.firsts (es ++ Link.ofFile path name)) := by
  rw [Link.firsts_append]
  cases name with
  | none => exact h.search _
  | some n => exact (h.search _).bind n path

theorem lists_files (files : List String) :
    (files.foldl addFile {}).Lists
      (Link.firsts (files.flatMap fun f => Link.ofFile f (crateName? f))) := by
  induction files using List.reverseRecOn with
  | nil => exact ⟨rfl, by simp [Link.firsts], by simp [Link.firsts]⟩
  | append_singleton files f ih =>
    rw [List.foldl_append, List.flatMap_append, List.flatMap_singleton]
    exact ih.add f (crateName? f)

theorem addRoot_eq (g : Registry) (d : Disk) (l : Links) (root : String) :
    addRoot g d l root =
      if root ∈ l.externs then l
      else (cratePath? g d root).elim l fun path => l.add path (some root) := by
  unfold addRoot cratePath?
  simp only [List.contains_iff_mem]
  split
  · rfl
  · cases (g.resolve? d root).bind (·.location) with
    | none => rfl
    | some path => by_cases h : isCratePath path = true <;> simp [Option.filter, h]

theorem Lists.addRoot (h : l.Lists (Link.firsts es)) (g : Registry) (d : Disk) {root : String}
    (hroot : root ∉ l.externs) :
    (addRoot g d l root).Lists (Link.firsts (es ++ Link.ofRoot g d root)) := by
  rw [addRoot_eq, if_neg hroot, Link.ofRoot]
  cases cratePath? g d root with
  | none => simpa using h
  | some path => exact h.add path (some root)

/-- The entries of a crate are for no other crate. -/
theorem crate_ofRoot {g : Registry} {d : Disk} {root n : String}
    (h : .crate n ∈ (Link.ofRoot g d root).map Link.key) : n = root := by
  unfold Link.ofRoot at h
  cases hpath : cratePath? g d root with
  | none => simp [hpath] at h
  | some path => simpa [hpath, Link.ofFile, Link.key] using h

/-- Crates are looked up if nothing in front of them is bound to their names. -/
theorem Lists.addRoots (g : Registry) (d : Disk) {roots : List String} (hroots : roots.Nodup)
    (h : l.Lists (Link.firsts es)) :
    (roots.foldl (Links.addRoot g d) l).Lists (Link.firsts (es ++
      (roots.filter (.crate · ∉ es.map Link.key)).flatMap (Link.ofRoot g d))) := by
  induction roots generalizing l es with
  | nil => simpa using h
  | cons root roots ih =>
    rw [List.nodup_cons] at hroots
    rw [List.foldl_cons, List.filter_cons]
    by_cases hmem : .crate root ∈ es.map Link.key
    · have hbound : root ∈ l.externs := (h.externs root).2 (Link.mem_keys_firsts.2 hmem)
      rw [addRoot_eq, if_pos hbound, if_neg (by simpa using hmem)]
      exact ih hroots.2 h
    · have hfree : root ∉ l.externs := fun hx => hmem (Link.mem_keys_firsts.1 ((h.externs root).1 hx))
      rw [if_pos (by simpa using hmem), List.flatMap_cons, ← List.append_assoc]
      have hsame : roots.filter (.crate · ∉ es.map Link.key) =
          roots.filter (.crate · ∉ (es ++ Link.ofRoot g d root).map Link.key) := by
        refine List.filter_congr fun r hr => ?_
        rw [decide_eq_decide, not_iff_not, List.map_append, List.mem_append]
        refine ⟨.inl, fun h => h.resolve_right fun h => ?_⟩
        exact hroots.1 (crate_ofRoot h ▸ hr)
      rw [hsame]
      exact ih hroots.2 (h.addRoot g d hfree)

end

theorem crate_files {files : List String} {n : String} :
    .crate n ∈ (files.flatMap fun f => Link.ofFile f (crateName? f)).map Link.key ↔
      files.any (crateName? · == some n) = true := by
  rw [List.map_flatMap, List.mem_flatMap, List.any_eq_true]
  refine exists_congr fun f => and_congr_right fun _ => ?_
  cases crateName? f with
  | none => simp [Link.ofFile, Link.key]
  | some m => simp [Link.ofFile, Link.key, @eq_comm _ n m]

/-- The linking part is written from its entries. -/
theorem args_of (g : Registry) (d : Disk) (files imports : List String) :
    (of g d files imports).args = (linking g d files imports).flatMap Link.args := by
  have h := (lists_files files).addRoots g d (crateRoots imports).nodup
  have hwanted : (crateRoots imports).toList.filter
      (.crate · ∉ (files.flatMap fun f => Link.ofFile f (crateName? f)).map Link.key) =
        wanted files imports := by
    refine List.filter_congr fun root _ => ?_
    rw [Bool.eq_iff_iff, decide_eq_true_iff, crate_files, Bool.not_eq_true, Bool.not_eq_true']
  rw [hwanted] at h
  exact h.args

end Links

theorem arguments_eq (s : Settings) (g : Registry) (d : Disk) (assemblyName : String)
    (imports files : List String) (source output : String) :
    arguments s g d assemblyName imports files source output =
      fixedArguments s assemblyName ++ (linking g d files imports).flatMap Link.args ++
        s.extraArgs ++ ["-o", output, source] := by
  rw [arguments, Links.args_of]

/-! ## What the entries are -/

section

variable {g : Registry} {d : Disk} {files imports : List String} {n path value : String}

theorem mem_wanted :
    n ∈ wanted files imports ↔ n ∈ crateRoots imports ∧ ∀ f ∈ files, crateName? f ≠ some n := by
  rw [wanted, List.mem_filter, NameSet.mem_def, Bool.not_eq_true', List.any_eq_false]
  simp only [beq_iff_eq, ne_eq]

theorem search_mem_ofFile (f : String) :
    .search value ∈ Link.ofFile f (crateName? f) ↔
      value = (if isCratePath f then "dependency=" else "native=") ++ Links.directory f := by
  by_cases h : isCratePath f = true
  · obtain ⟨m, -, hm⟩ := exists_crateName? h
    simp [hm, h, Link.ofFile]
  · have hm : crateName? f = none := if_neg h
    simp [hm, h, Link.ofFile]

/-- The search paths: of every file, and of every crate that the registry adds. -/
theorem search_mem_linking :
    .search value ∈ linking g d files imports ↔
      (∃ f ∈ files,
        value = (if isCratePath f then "dependency=" else "native=") ++ Links.directory f) ∨
      ∃ root ∈ wanted files imports, ∃ p, cratePath? g d root = some p ∧
        value = "dependency=" ++ Links.directory p := by
  rw [linking, Link.search_mem_firsts, List.mem_append, List.mem_flatMap, List.mem_flatMap]
  refine or_congr ?_ ?_
  · simp only [search_mem_ofFile]
  · refine exists_congr fun root => and_congr_right fun _ => ?_
    unfold Link.ofRoot
    cases cratePath? g d root with
    | none => simp
    | some p => simp [Link.ofFile]

theorem find?_ofFile (f : String) (name : Option String) :
    (Link.ofFile f name).find? (·.key = .crate n) =
      if name = some n then some (.crate n f) else none := by
  cases name with
  | none => rfl
  | some m => by_cases h : m = n <;> simp [Link.ofFile, Link.key, h]

theorem find?_files :
    (files.flatMap fun f => Link.ofFile f (crateName? f)).find? (·.key = .crate n) =
      (files.find? (crateName? · = some n)).map (.crate n ·) := by
  rw [List.find?_flatMap]
  induction files with
  | nil => rfl
  | cons f files ih =>
    rw [List.findSome?_cons, find?_ofFile, List.find?_cons]
    by_cases h : crateName? f = some n
    · simp [h]
    · simpa [h] using ih

theorem find?_roots (roots : List String) :
    (roots.flatMap (Link.ofRoot g d)).find? (·.key = .crate n) =
      if n ∈ roots then (cratePath? g d n).map (.crate n ·) else none := by
  rw [List.find?_flatMap]
  induction roots with
  | nil => rfl
  | cons root roots ih =>
    have hroot : (Link.ofRoot g d root).find? (·.key = .crate n) =
        if root = n then (cratePath? g d root).map (.crate n ·) else none := by
      unfold Link.ofRoot
      cases cratePath? g d root with
      | none => simp
      | some p => simp [find?_ofFile]
    rw [List.findSome?_cons, hroot, ih]
    by_cases h : root = n
    · subst h
      cases cratePath? g d root <;> simp
    · simp [h, Ne.symm h]

/-- The crates that are bound: each crate among the files to the first of its files, and each that
is wanted to where the registry has it. -/
theorem crate_mem_linking :
    .crate n path ∈ linking g d files imports ↔
      files.find? (crateName? · = some n) = some path ∨
      n ∈ wanted files imports ∧ cratePath? g d n = some path := by
  have hkey : Link.key (.crate n path) = .crate n := rfl
  rw [linking, Link.mem_firsts_iff, hkey, List.find?_append, find?_files, find?_roots]
  cases hfile : files.find? (crateName? · = some n) with
  | some f =>
    have hnot : n ∉ wanted files imports := by
      rw [mem_wanted, not_and]
      intro _ h
      exact h f (List.mem_of_find?_eq_some hfile) (by simpa using List.find?_some hfile)
    simp [hnot]
  | none => simp

/-- The registry has a crate where the first candidate for its name is. -/
theorem cratePath?_eq_some_iff : cratePath? g d n = some path ↔
    isCratePath path = true ∧
      ∃ r, (g.candidates d n).head? = some r ∧ r.location? = some path := by
  rw [cratePath?, Option.filter_eq_some_iff, Registry.bind_location_resolve?,
    Option.bind_eq_some_iff, and_comm]

/-- A crate that the registry has is one of its references, maybe with a mark behind its path that
the file was deleted. -/
theorem exists_reference (h : cratePath? g d n = some path) :
    isCratePath path = true ∧ ∃ r ∈ g.entries, r.identity? = some n ∧
      (r.toFile = .ok path ∨ r.toFile = .ok (path ++ String.ofList deletedMark)) := by
  obtain ⟨hcrate, r, hfirst, hplace⟩ := cratePath?_eq_some_iff.1 h
  obtain ⟨hr, hname, -⟩ := Registry.mem_candidates.1 (List.mem_of_head? hfirst)
  exact ⟨hcrate, r, hr, hname, Reference.location?_of_toFile hplace⟩

/-- Crates that are always there are not looked up. -/
theorem linking_congr {g' : Registry}
    (h : ∀ root, root ∉ implicitCrates → g'.resolve? d root = g.resolve? d root) :
    linking g' d files imports = linking g d files imports := by
  have hroots : (wanted files imports).flatMap (Link.ofRoot g' d) =
      (wanted files imports).flatMap (Link.ofRoot g d) := by
    refine List.flatMap_congr fun root hroot => ?_
    have himplicit := (mem_crateRoots.1 (mem_wanted.1 hroot).1).2.2
    rw [Link.ofRoot, Link.ofRoot, cratePath?, cratePath?, h root himplicit]
  rw [linking, linking, hroots]

/-- Every file that is a crate is bound, with others of its name, by the first of them. -/
theorem exists_crate_of_mem {f : String} (hf : f ∈ files) (hcrate : isCratePath f = true) :
    ∃ n first, (Reference.file f).identity? = some n ∧
      files.find? (crateName? · = some n) = some first ∧
      .crate n first ∈ linking g d files imports := by
  obtain ⟨n, hidentity, hname⟩ := exists_crateName? hcrate
  have hsome : (files.find? (crateName? · = some n)).isSome = true := by
    rw [List.find?_isSome]
    exact ⟨f, hf, decide_eq_true hname⟩
  obtain ⟨first, hfirst⟩ := Option.isSome_iff_exists.1 hsome
  exact ⟨n, first, hidentity, hfirst, crate_mem_linking.2 (.inl hfirst)⟩

end

/-- The linking part of every command line. No search path and no crate is given twice. The search
paths are the parents of the files, by what each of them is, and of the crates that the registry
adds; a path without a parent counts as one of the working directory. A file that is a crate is
bound unless an earlier one has its name; every other crate that is bound is one that imports start
with and no file provides, and its path comes from the registry. What the registry holds under the
names that are always there does not matter. -/
theorem linking_consistent (s : Settings) (g : Registry) (d : Disk) (assemblyName : String)
    (imports files : List String) (source output : String) :
    let links := linking g d files imports
    arguments s g d assemblyName imports files source output =
      fixedArguments s assemblyName ++ links.flatMap Link.args ++ s.extraArgs ++
        ["-o", output, source] ∧
    (links.map Link.key).Nodup ∧
    (∀ value, .search value ∈ links ↔
      (∃ f ∈ files,
        value = (if isCratePath f then "dependency=" else "native=") ++
          (Path.parent? f).getD ".") ∨
      ∃ root ∈ wanted files imports, ∃ path, cratePath? g d root = some path ∧
        value = "dependency=" ++ (Path.parent? path).getD ".") ∧
    (∀ f ∈ files, isCratePath f = true →
      ∃ n first, (Reference.file f).identity? = some n ∧
        files.find? (crateName? · = some n) = some first ∧ .crate n first ∈ links) ∧
    (∀ n path, .crate n path ∈ links ↔ files.find? (crateName? · = some n) = some path ∨
      n ∈ wanted files imports ∧ cratePath? g d n = some path) ∧
    (∀ n, n ∈ wanted files imports ↔
      n ∈ crateRoots imports ∧ ∀ f ∈ files, crateName? f ≠ some n) ∧
    (∀ n path, cratePath? g d n = some path →
      isCratePath path = true ∧ ∃ r ∈ g.entries, r.identity? = some n ∧
        (r.toFile = .ok path ∨ r.toFile = .ok (path ++ String.ofList deletedMark))) ∧
    (∀ n ∈ crateRoots imports, n ∉ implicitCrates) ∧
    ∀ g' : Registry, (∀ n, n ∉ implicitCrates → g'.resolve? d n = g.resolve? d n) →
      arguments s g' d assemblyName imports files source output =
        arguments s g d assemblyName imports files source output := by
  intro links
  refine ⟨arguments_eq .., Link.nodup_keys_firsts _, fun value => search_mem_linking,
    fun f hf hcrate => exists_crate_of_mem hf hcrate, fun n path => crate_mem_linking,
    fun n => mem_wanted, fun n path => exists_reference, fun n hn => (mem_crateRoots.1 hn).2.2,
    fun g' hsame => ?_⟩
  rw [arguments_eq, arguments_eq, linking_congr hsame]

/-! ## Crates of the registry -/

/-- A reference to the crate of a name. -/
def IsCrate (name : String) (r : Reference) : Prop :=
  r.identity? = some name ∧ ∃ path, r.toFile = .ok path ∧ isCratePath path = true

/-- The crate of a name is hidden: no reference answers the name, or the first one that does is no
crate. -/
def Hidden (g : Registry) (d : Disk) (name : String) : Prop :=
  ∀ r ∈ (g.candidates d name).head?, ∀ path ∈ r.location?, isCratePath path = false

theorem isSome_cratePath?_iff {g : Registry} {d : Disk} {name : String} :
    (∃ path, cratePath? g d name = some path) ↔ ¬ Hidden g d name := by
  simp only [cratePath?_eq_some_iff, Hidden, Option.mem_def, not_forall, exists_prop,
    Bool.not_eq_false]
  constructor
  · rintro ⟨path, hcrate, r, hfirst, hplace⟩
    exact ⟨r, hfirst, path, hplace, hcrate⟩
  · rintro ⟨r, hfirst, path, hplace, hcrate⟩
    exact ⟨path, hcrate, r, hfirst, hplace⟩

/-- A crate that imports start with and that no file provides is bound exactly if it is not hidden,
and then to a crate of the registry. The candidates for its name are the references under it that
can answer. -/
theorem crate_iff_not_hidden (s : Settings) (g : Registry) (d : Disk) (assemblyName : String)
    {imports files : List String} (source output : String) {root : String}
    (hroot : root ∈ crateRoots imports) (hfiles : ∀ f ∈ files, crateName? f ≠ some root) :
    let links := linking g d files imports
    arguments s g d assemblyName imports files source output =
      fixedArguments s assemblyName ++ links.flatMap Link.args ++ s.extraArgs ++
        ["-o", output, source] ∧
    ((∃ path, .crate root path ∈ links) ↔ ¬ Hidden g d root) ∧
    (∀ path, .crate root path ∈ links →
      isCratePath path = true ∧ ∃ r ∈ g.entries, r.identity? = some root ∧
        (r.toFile = .ok path ∨ r.toFile = .ok (path ++ String.ofList deletedMark))) ∧
    ∀ r, r ∈ g.candidates d root ↔
      r ∈ g.entries ∧ r.identity? = some root ∧ r.answers d = true := by
  intro links
  have hwanted : root ∈ wanted files imports := mem_wanted.2 ⟨hroot, hfiles⟩
  have hnone : files.find? (crateName? · = some root) = none := by
    rw [List.find?_eq_none]
    exact fun f hf h => hfiles f hf (of_decide_eq_true h)
  have hbound : ∀ path, .crate root path ∈ links ↔ cratePath? g d root = some path := by
    intro path
    rw [crate_mem_linking, hnone]
    simp [hwanted]
  refine ⟨arguments_eq .., ?_, fun path h => exists_reference ((hbound path).1 h),
    fun r => Registry.mem_candidates⟩
  simp only [hbound]
  exact isSome_cratePath?_iff

/-- A file that cannot be opened does not hide a crate behind it. -/
theorem crate_behind_unopened :
    let g : Registry := ⟨[.file "/a/libfoo.so", .file "/b/libfoo.rlib"]⟩
    "foo" ∈ crateRoots ["foo::Bar"] ∧ (∀ f ∈ ["/c/libfoo.so"], crateName? f ≠ some "foo") ∧
      ¬ Hidden g default "foo" ∧
      ∃ path, .crate "foo" path ∈ linking g default ["/c/libfoo.so"] ["foo::Bar"] := by
  intro g
  have hroot : "foo" ∈ crateRoots ["foo::Bar"] := by decide +kernel
  have hfiles : ∀ f ∈ ["/c/libfoo.so"], crateName? f ≠ some "foo" := by decide +kernel
  have hsorted : ["/a/libfoo.so", "/b/libfoo.rlib"].Pairwise (Path.le · ·) := by decide +kernel
  have hnamed : g.filesNamed "foo" = ["/a/libfoo.so", "/b/libfoo.rlib"] :=
    List.mergeSort_of_pairwise hsorted
  have hcrate : cratePath? g default "foo" = some "/b/libfoo.rlib" := by
    rw [cratePath?, Registry.resolve?, hnamed]
    decide +kernel
  have hshown : ¬ Hidden g default "foo" := isSome_cratePath?_iff.1 ⟨_, hcrate⟩
  exact ⟨hroot, hfiles, hshown,
    (crate_iff_not_hidden { tempDir := "/tmp" } g default "T" "/s/in.rs" "/s/out.so" hroot
      hfiles).2.1.2 hshown⟩

/-- A native library hides a crate of its name that stands behind it by its path. -/
theorem crate_behind_native_lost :
    ¬ ∀ (g : Registry) (d : Disk) (files imports : List String) (root : String),
      root ∈ crateRoots imports → (∀ f ∈ files, crateName? f ≠ some root) →
      (∃ r ∈ g.entries, IsCrate root r) →
      ∃ path, .crate root path ∈ linking g d files imports := by
  intro h
  let g : Registry := ⟨[.file "/a/libfoo.a", .file "/b/libfoo.rlib"]⟩
  have hroot : "foo" ∈ crateRoots ["foo::Bar"] := by decide +kernel
  have hcrate : ∃ r ∈ g.entries, IsCrate "foo" r :=
    ⟨.file "/b/libfoo.rlib", by simp [g], by decide +kernel, _, rfl, by decide +kernel⟩
  obtain ⟨path, hpath⟩ := h g default [] ["foo::Bar"] "foo" hroot (by simp) hcrate
  have hsorted : ["/a/libfoo.a", "/b/libfoo.rlib"].Pairwise (Path.le · ·) := by decide +kernel
  have hnamed : g.filesNamed "foo" = ["/a/libfoo.a", "/b/libfoo.rlib"] :=
    List.mergeSort_of_pairwise hsorted
  have hnone : cratePath? g default "foo" = none := by
    rw [cratePath?, Registry.resolve?, hnamed]
    decide +kernel
  rcases crate_mem_linking.1 hpath with hfile | ⟨-, hplace⟩
  · cases hfile
  · rw [hnone] at hplace
    cases hplace

end Sigil.Compiler
