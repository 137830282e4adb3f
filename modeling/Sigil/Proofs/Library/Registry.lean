import Mathlib.Data.List.Induction
import Mathlib.Data.List.Pairwise
import Mathlib.Tactic.ByContra
import Sigil.Library.Registry

/-!
# What a registry holds

Being the same reference is reflexive and symmetric but not transitive: a file is the same as every
module that is located there, and two such modules may differ. A registry keeps the first of
references that are the same, so the first one at a place of the disk decides: a file stands for all
modules there (`Covered`), and a module keeps files out (`Missed`). The main statements say exactly
which references a registry contains (`contains_run_iff`) and which names it resolves
(`resolve?_run`).
-/

namespace Sigil.Library

/-! ## Sameness -/

theorem sameLocation_iff {a b : Option String} :
    sameLocation a b = true ↔ a.map Path.components = b.map Path.components := by
  cases a <;> cases b <;> simp [sameLocation, Path.alike]

theorem Module.same_iff {a b : Module} :
    a.same b = true ↔ a.name = b.name ∧ a.version = b.version ∧
      a.location.map Path.components = b.location.map Path.components ∧
      a.isTemporary = b.isTemporary := by
  simp only [Module.same, Bool.and_eq_true, beq_iff_eq, sameLocation_iff, and_assoc]

namespace Reference

def place? : Reference → Option (List Path.Component)
  | file path => some (Path.components path)
  | module m => m.location.map Path.components
  | stream _ => none
  | bytes _ => none

def isFile : Reference → Bool
  | file _ => true
  | _ => false

theorem eq_file_of_isFile {r : Reference} (h : r.isFile = true) : ∃ path, r = file path := by
  cases r with
  | file path => exact ⟨path, rfl⟩
  | module _ | stream _ | bytes _ => cases h

theorem eq_module_of_place? {r : Reference} {place : List Path.Component}
    (h : r.isFile = false) (hplace : r.place? = some place) : ∃ m, r = module m := by
  cases r with
  | file _ => cases h
  | module m => exact ⟨m, rfl⟩
  | stream _ | bytes _ => cases hplace

theorem same_self (r : Reference) : r.same r = true := by
  cases r <;> simp [same, Path.alike, Module.same_iff]

theorem same_comm (r s : Reference) : r.same s = s.same r := by
  match r, s with
  | file _, file _ => exact Bool.beq_comm
  | module _, module _ =>
    rw [same, same, Bool.eq_iff_iff, Module.same_iff, Module.same_iff]
    simp only [eq_comm]
  | stream _, stream _ => exact Bool.beq_comm
  | bytes _, bytes _ => exact Bool.beq_comm
  | file _, module _ | module _, file _ | file _, stream _ | stream _, file _ | file _, bytes _
  | bytes _, file _ | module _, stream _ | stream _, module _ | module _, bytes _
  | bytes _, module _ | stream _, bytes _ | bytes _, stream _ => rfl

/-- A file is the same as whatever is at its place. -/
theorem file_same_iff {path : String} {s : Reference} :
    (file path).same s = true ↔ s.place? = some (Path.components path) := by
  cases s with
  | file q =>
    rw [same, Path.alike, beq_iff_eq, place?, Option.some.injEq]
    exact eq_comm
  | module m => simp only [same, place?, sameLocation_iff, Option.map_some]
  | stream _ => simp [same, place?]
  | bytes _ => simp [same, place?]

theorem same_of_isFile {r s : Reference} (hr : r.isFile = true) (h : r.place? = s.place?) :
    r.same s = true := by
  cases r with
  | file path => exact file_same_iff.2 h.symm
  | module _ | stream _ | bytes _ => cases hr

theorem place?_eq_of_same {r s : Reference} (h : r.same s = true) : r.place? = s.place? := by
  match r, s with
  | file _, s => exact (file_same_iff.1 h).symm
  | r, file _ =>
    rw [same_comm] at h
    exact file_same_iff.1 h
  | module _, module _ => exact (Module.same_iff.1 h).2.2.1
  | stream _, stream _ | bytes _, bytes _ => rfl

/-- Sameness passes through every reference but a file between two modules. -/
theorem same_trans {r s t : Reference} (hrs : r.same s = true) (hst : s.same t = true)
    (hfile : s.isFile = true → r.isFile = true ∨ t.isFile = true) : r.same t = true := by
  have hplace := (place?_eq_of_same hrs).trans (place?_eq_of_same hst)
  by_cases hr : r.isFile = true
  · exact same_of_isFile hr hplace
  by_cases ht : t.isFile = true
  · rw [same_comm]
    exact same_of_isFile ht hplace.symm
  -- Between references that are no files sameness compares the same parts on both sides.
  match r, s, t with
  | _, file _, _ => exact absurd (hfile rfl) (not_or.2 ⟨hr, ht⟩)
  | module a, module b, module c =>
    rw [same, Module.same_iff] at hrs hst ⊢
    obtain ⟨h₁, h₂, h₃, h₄⟩ := hrs
    obtain ⟨k₁, k₂, k₃, k₄⟩ := hst
    exact ⟨h₁.trans k₁, h₂.trans k₂, h₃.trans k₃, h₄.trans k₄⟩
  | stream a, stream b, stream c =>
    rw [same, beq_iff_eq] at hrs hst ⊢
    exact hrs.trans hst
  | bytes a, bytes b, bytes c =>
    rw [same, beq_iff_eq] at hrs hst ⊢
    exact hrs.trans hst

/-- Two references that are not the same. -/
def Apart (r s : Reference) : Prop := r.same s = false

instance : Std.Symm Apart := ⟨fun r s h => by rwa [Apart, same_comm]⟩

theorem isIn_iff {r : Reference} {rs : List Reference} :
    r.isIn rs = true ↔ ∃ e ∈ rs, e.same r = true := by
  rw [isIn, List.any_eq_true]

end Reference

/-- The first reference of a list at a place of the disk. -/
def firstAt? (place : List Path.Component) (rs : List Reference) : Option Reference :=
  rs.find? (·.place? == some place)

namespace Registry

/-! ## Calls -/

inductive Call where
  | add (r : Reference)
  | extend (rs : List Reference)

def Call.references : Call → List Reference
  | add r => [r]
  | extend rs => rs

def Call.perform (g : Registry) : Call → Registry
  | add r => g.add r
  | extend rs => g.addAll rs

/-- A fresh registry after some calls. -/
def run (calls : List Call) : Registry := calls.foldl Call.perform {}

/-- The references that some calls hand over, in order. -/
def passed (calls : List Call) : List Reference := calls.flatMap Call.references

def ofList (rs : List Reference) : Registry := addAll {} rs

theorem addAll_append (g : Registry) (rs ss : List Reference) :
    g.addAll (rs ++ ss) = (g.addAll rs).addAll ss := List.foldl_append

theorem run_eq_ofList (calls : List Call) : run calls = ofList (passed calls) := by
  have general : ∀ g : Registry, calls.foldl Call.perform g = g.addAll (passed calls) := by
    induction calls with
    | nil => exact fun g => rfl
    | cons c calls ih =>
      intro g
      have hc : c.perform g = g.addAll c.references := by cases c <;> rfl
      rw [List.foldl_cons, ih, hc, ← addAll_append, passed, passed, List.flatMap_cons]
  exact general {}

theorem ofList_append_singleton (rs : List Reference) (r : Reference) :
    ofList (rs ++ [r]) = (ofList rs).add r := addAll_append {} rs [r]

/-! ## Entries -/

theorem contains_iff {g : Registry} {r : Reference} :
    g.contains r = true ↔ ∃ e ∈ g.entries, e.same r = true := Reference.isIn_iff

theorem add_cases (g : Registry) (r : Reference) :
    (g.contains r = true ∧ g.add r = g) ∨
      (g.contains r = false ∧ (g.add r).entries = g.entries ++ [r]) := by
  by_cases h : g.contains r = true
  · exact .inl ⟨h, if_pos h⟩
  · exact .inr ⟨by simpa using h, by rw [add, if_neg h]⟩

theorem contains_add_self (g : Registry) (r : Reference) : (g.add r).contains r = true := by
  rcases add_cases g r with ⟨h, hg⟩ | ⟨-, hg⟩
  · rwa [hg]
  · rw [contains_iff, hg]
    exact ⟨r, by simp, r.same_self⟩

theorem mem_addAll {g : Registry} {e : Reference} (rs : List Reference) (h : e ∈ g.entries) :
    e ∈ (g.addAll rs).entries := by
  induction rs generalizing g with
  | nil => exact h
  | cons r rs ih =>
    refine ih ?_
    rcases add_cases g r with ⟨-, hg⟩ | ⟨-, hg⟩
    · rwa [hg]
    · rw [hg]
      exact List.mem_append_left [r] h

theorem contains_addAll_of_mem (g : Registry) {r : Reference} {rs : List Reference} (h : r ∈ rs) :
    (g.addAll rs).contains r = true := by
  obtain ⟨before, after, rfl⟩ := List.append_of_mem h
  rw [addAll_append]
  show (((g.addAll before).add r).addAll after).contains r = true
  exact contains_addAll_of_contains (contains_add_self (g.addAll before) r)

theorem ofList_cut (before after : List Reference) (r : Reference) :
    ofList (before ++ r :: after) = ((ofList before).add r).addAll after :=
  addAll_append {} before (r :: after)

section

variable {rs : List Reference} {r e f : Reference}

theorem mem_of_mem_entries (h : e ∈ (ofList rs).entries) : e ∈ rs := by
  induction rs using List.reverseRecOn with
  | nil => exact h
  | append_singleton rs s ih =>
    rw [ofList_append_singleton] at h
    rw [List.mem_append]
    rcases add_cases (ofList rs) s with ⟨-, hg⟩ | ⟨-, hg⟩
    · rw [hg] at h
      exact .inl (ih h)
    · rw [hg, List.mem_append] at h
      exact h.imp_left ih

theorem contains_of_mem (h : r ∈ rs) : (ofList rs).contains r = true := contains_addAll_of_mem {} h

theorem pairwise_entries (rs : List Reference) :
    (ofList rs).entries.Pairwise Reference.Apart := by
  induction rs using List.reverseRecOn with
  | nil => exact List.Pairwise.nil
  | append_singleton rs s ih =>
    rw [ofList_append_singleton]
    rcases add_cases (ofList rs) s with ⟨-, hg⟩ | ⟨hs, hg⟩
    · rwa [hg]
    · rw [hg, List.pairwise_append]
      refine ⟨ih, List.pairwise_singleton _ _, fun e he f hf => ?_⟩
      rw [List.mem_singleton.1 hf]
      by_contra hsame
      have := contains_iff.2 ⟨e, he, Bool.of_not_eq_false hsame⟩
      rw [hs] at this
      cases this

theorem eq_of_same (he : e ∈ (ofList rs).entries) (hf : f ∈ (ofList rs).entries)
    (h : e.same f = true) : e = f := by
  by_contra hne
  have hapart := (pairwise_entries rs).forall he hf hne
  rw [Reference.Apart, h] at hapart
  cases hapart

theorem mem_entries_of_firstAt? {place : List Path.Component} (h : firstAt? place rs = some r) :
    r ∈ (ofList rs).entries := by
  obtain ⟨hr, before, after, rfl, hbefore⟩ := List.find?_eq_some_iff_append.1 h
  rw [ofList_cut]
  refine mem_addAll after ?_
  rcases add_cases (ofList before) r with ⟨hc, -⟩ | ⟨-, hg⟩
  · obtain ⟨e, he, hsame⟩ := contains_iff.1 hc
    have hnone := hbefore e (mem_of_mem_entries he)
    rw [Reference.place?_eq_of_same hsame, hr] at hnone
    cases hnone
  · rw [hg]
    exact List.mem_append_right _ (List.mem_singleton_self r)

/-- The first reference at the place of an entry is a file if and only if the entry is. -/
theorem firstAt?_of_mem_entries {place : List Path.Component} (he : e ∈ (ofList rs).entries)
    (hplace : e.place? = some place) :
    ∃ f, firstAt? place rs = some f ∧ f.place? = some place ∧ f.isFile = e.isFile := by
  cases hfirst : firstAt? place rs with
  | none =>
    have := List.find?_eq_none.1 hfirst e (mem_of_mem_entries he)
    rw [hplace] at this
    exact absurd BEq.rfl this
  | some f =>
    have hf : f.place? = some place := by simpa using List.find?_some hfirst
    have hmem := mem_entries_of_firstAt? hfirst
    refine ⟨f, rfl, hf, ?_⟩
    by_cases hfile : f.isFile = true
    · rw [eq_of_same hmem he (Reference.same_of_isFile hfile (hf.trans hplace.symm))]
    by_cases hefile : e.isFile = true
    · rw [eq_of_same he hmem (Reference.same_of_isFile hefile (hplace.trans hf.symm))]
    · rw [Bool.eq_false_iff.2 hfile, Bool.eq_false_iff.2 hefile]

end

/-! ## Membership -/

/-- A module of which a registry knows nothing though a file at its place was handed over: none that
is the same was, and a module was the first reference there. -/
def Missed (rs : List Reference) (m : Module) : Prop :=
  (∃ path, .file path ∈ rs ∧ (Reference.file path).same (.module m) = true) ∧
  (∀ n, .module n ∈ rs → n.same m = false) ∧
  ∃ place n, (Reference.module m).place? = some place ∧ firstAt? place rs = some (.module n)

theorem contains_ofList_iff (rs : List Reference) (r : Reference) :
    (ofList rs).contains r = true ↔
      (∃ s ∈ rs, s.same r = true) ∧ ∀ m, r = .module m → ¬ Missed rs m := by
  constructor
  · intro h
    obtain ⟨e, he, hsame⟩ := contains_iff.1 h
    refine ⟨⟨e, mem_of_mem_entries he, hsame⟩, ?_⟩
    rintro m rfl ⟨-, hmodules, place, n, hplace, hfirst⟩
    have heplace := (Reference.place?_eq_of_same hsame).trans hplace
    cases e with
    | file path =>
      obtain ⟨f, hf, -, hfile⟩ := firstAt?_of_mem_entries he heplace
      rw [hfirst, Option.some.injEq] at hf
      rw [← hf] at hfile
      cases hfile
    | module k =>
      have := hmodules k (mem_of_mem_entries he)
      rw [← Reference.same, hsame] at this
      cases this
    | stream _ | bytes _ => cases hsame
  · rintro ⟨⟨s, hs, hsame⟩, hmissed⟩
    by_contra hnot
    have misses : ∀ s ∈ rs, s.same r = true →
        s.isFile = true ∧ r.isFile = false ∧ ∃ e ∈ (ofList rs).entries,
          e.same s = true ∧ e.isFile = false := by
      intro s hs hsame
      obtain ⟨e, he, hes⟩ := contains_iff.1 (contains_of_mem hs)
      have hnone : ¬ (s.isFile = true → e.isFile = true ∨ r.isFile = true) := fun hfile =>
        hnot (contains_iff.2 ⟨e, he, Reference.same_trans hes hsame hfile⟩)
      rw [Classical.not_imp, not_or, Bool.not_eq_true, Bool.not_eq_true] at hnone
      exact ⟨hnone.1, hnone.2.2, e, he, hes, hnone.2.1⟩
    -- Left is a file between two modules, of which one is the entry and the other is asked for.
    obtain ⟨hsfile, hrfile, e, he, hes, hefile⟩ := misses s hs hsame
    obtain ⟨path, rfl⟩ := Reference.eq_file_of_isFile hsfile
    have hrplace := Reference.file_same_iff.1 hsame
    obtain ⟨m, rfl⟩ := Reference.eq_module_of_place? hrfile hrplace
    refine hmissed m rfl ⟨⟨path, hs, hsame⟩, fun n hn => ?_, Path.components path, ?_⟩
    · by_contra hnm
      have := (misses (.module n) hn (Bool.of_not_eq_false hnm)).1
      cases this
    · obtain ⟨f, hf, hfplace, hffile⟩ :=
        firstAt?_of_mem_entries he (Reference.place?_eq_of_same hes)
      obtain ⟨n, rfl⟩ := Reference.eq_module_of_place? (hffile.trans hefile) hfplace
      exact ⟨n, hrplace, hf⟩

/-- After any calls a registry contains a reference exactly when one that is the same was handed
over, except for the modules that it has missed. -/
theorem contains_run_iff (calls : List Call) (r : Reference) :
    (run calls).contains r = true ↔
      (∃ s ∈ passed calls, s.same r = true) ∧ ∀ m, r = .module m → ¬ Missed (passed calls) m := by
  rw [run_eq_ofList]
  exact contains_ofList_iff (passed calls) r

/-- A module in front of a file keeps the file out, and with it another module at that place. -/
theorem file_behind_module_lost :
    ¬ ∀ (calls : List Call) (r : Reference),
      (run calls).contains r = true ↔ ∃ s ∈ passed calls, s.same r = true := by
  intro h
  let foo : Module := ⟨"foo", ⟨[]⟩, some "/lib/libfoo.so", false, false⟩
  let bar : Module := ⟨"bar", ⟨[]⟩, some "/lib/libfoo.so", false, false⟩
  have hcontains := (h [.add (.module foo), .add (.file "/lib/libfoo.so")] (.module bar)).2
    ⟨.file "/lib/libfoo.so", by simp [passed, Call.references], by decide +kernel⟩
  exact absurd hcontains (by decide +kernel)

/-! ## Resolution -/

theorem name_of_module? {g : Registry} {name : String} {m : Module} (h : g.module? name = some m) :
    .module m ∈ g.entries ∧ m.name = name := by
  obtain ⟨e, he, hm⟩ := List.exists_of_findSome?_eq_some h
  cases e with
  | module k =>
    simp only [Option.ite_none_right_eq_some, Option.some.injEq] at hm
    obtain ⟨hname, rfl⟩ := hm
    exact ⟨he, hname⟩
  | file _ | stream _ | bytes _ => cases hm

theorem isSome_module?_of_mem {g : Registry} {m : Module} (h : .module m ∈ g.entries) :
    (g.module? m.name).isSome = true := by
  rw [module?, List.findSome?_isSome_iff]
  exact ⟨.module m, h, by simp⟩

/-- A file was the first reference that was handed over at the place of a module. -/
def Covered (rs : List Reference) (m : Module) : Prop :=
  ∃ place path, (Reference.module m).place? = some place ∧
    firstAt? place rs = some (.file path)

/-- A module with the name was handed over that no file covers. -/
def Knows (rs : List Reference) (name : String) : Prop :=
  ∃ m, .module m ∈ rs ∧ m.name = name ∧ ¬ Covered rs m

theorem isSome_module?_iff (rs : List Reference) (name : String) :
    ((ofList rs).module? name).isSome = true ↔ Knows rs name := by
  constructor
  · intro h
    obtain ⟨m, hm⟩ := Option.isSome_iff_exists.1 h
    obtain ⟨hmem, hname⟩ := name_of_module? hm
    refine ⟨m, mem_of_mem_entries hmem, hname, ?_⟩
    rintro ⟨place, path, hplace, hfirst⟩
    obtain ⟨f, hf, -, hfile⟩ := firstAt?_of_mem_entries hmem hplace
    rw [hfirst, Option.some.injEq] at hf
    rw [← hf] at hfile
    cases hfile
  · rintro ⟨m, hm, rfl, hcovered⟩
    obtain ⟨e, he, hsame⟩ := contains_iff.1 (contains_of_mem hm)
    cases e with
    | module k =>
      rw [← (Module.same_iff.1 hsame).1]
      exact isSome_module?_of_mem he
    | file path =>
      have hplace := Reference.file_same_iff.1 hsame
      obtain ⟨f, hf, -, hfile⟩ := firstAt?_of_mem_entries he rfl
      obtain ⟨q, rfl⟩ := Reference.eq_file_of_isFile hfile
      exact absurd ⟨_, q, hplace, hf⟩ hcovered
    | stream _ | bytes _ => cases hsame

theorem Knows.append {rs : List Reference} {name : String} (h : Knows rs name)
    (more : List Reference) : Knows (rs ++ more) name := by
  obtain ⟨m, hm, hname, hcovered⟩ := h
  refine ⟨m, List.mem_append_left more hm, hname, ?_⟩
  rintro ⟨place, path, hplace, hfirst⟩
  rw [firstAt?, List.find?_append, Option.or_eq_some_iff] at hfirst
  rcases hfirst with hfirst | ⟨hnone, -⟩
  · exact hcovered ⟨place, path, hplace, hfirst⟩
  · have := List.find?_eq_none.1 hnone _ hm
    rw [hplace] at this
    exact this BEq.rfl

/-- A name that is known stays resolvable, whatever is handed over later and whatever is on the
disk. Any other name is resolved by the files that were entered under it, or not at all. -/
theorem resolve?_run (calls : List Call) (name : String) :
    (Knows (passed calls) name → ∀ (later : List Call) (d : Disk),
      ∃ m, (run (calls ++ later)).resolve? d name = some m ∧ m.name = name) ∧
    (¬ Knows (passed calls) name → ∀ d : Disk,
      (run calls).resolve? d name = ((run calls).filesNamed name).findSome? (Module.open? d)) := by
  constructor
  · intro h later d
    have hpassed : passed (calls ++ later) = passed calls ++ passed later := List.flatMap_append
    have hsome := (isSome_module?_iff _ _).2 (h.append (passed later))
    rw [← hpassed, ← run_eq_ofList] at hsome
    obtain ⟨m, hm⟩ := Option.isSome_iff_exists.1 hsome
    exact ⟨m, by rw [resolve?, hm], (name_of_module? hm).2⟩
  · intro h d
    rw [← isSome_module?_iff, ← run_eq_ofList, Option.not_isSome_iff_eq_none] at h
    rw [resolve?, h]

/-- A module behind a file at its place is not found when the file cannot be opened. -/
theorem module_behind_file_lost :
    ¬ ∀ (calls : List Call) (d : Disk) (m : Module), .module m ∈ passed calls →
      ∃ k, (run calls).resolve? d m.name = some k ∧ k.name = m.name := by
  intro h
  let foo : Module := ⟨"foo", ⟨[]⟩, some "/deps/libfoo.so", false, false⟩
  obtain ⟨k, hk, -⟩ := h [.add (.file "/deps/libfoo.so"), .add (.module foo)] default foo
    (by simp [passed, Call.references])
  have hnone : (run [.add (.file "/deps/libfoo.so"), .add (.module foo)]).resolve? default
      foo.name = none := by decide +kernel
  rw [hnone] at hk
  cases hk

end Registry
end Sigil.Library
