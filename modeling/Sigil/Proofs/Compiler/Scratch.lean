import Mathlib.Data.Prod.Basic
import Sigil.Compiler.Run
import Sigil.Proofs.Disk.Naming

/-!
# What a compilation leaves

The steps of a compilation change nothing outside its scratch directory (`Beside`), as long as the
compiler does not and the source's name leads down. So a compilation that fails leaves the disk as
it is once the directory for scratch directories has been made, and one that has an output leaves
its scratch directory besides (`leaves_compile`). A source's name that leads up leaves a file behind
(`source_above_left`).
-/

namespace Sigil

open Sigil.Path Disk Library

/-! ## Names of scratch directories -/

theorem digitChar_ne_slash : ∀ n : Fin 16, Nat.digitChar n ≠ '/' := by decide

theorem slash_notMem_toDigits (n : Nat) : '/' ∉ Nat.toDigits 16 n := by
  have core : ∀ fuel n acc, '/' ∉ acc → '/' ∉ Nat.toDigitsCore 16 fuel n acc := by
    intro fuel
    induction fuel with
    | zero => exact fun _ _ h => h
    | succ fuel ih =>
      intro n acc h
      have hcons : '/' ∉ Nat.digitChar (n % 16) :: acc := by
        rw [List.mem_cons, not_or]
        exact ⟨(digitChar_ne_slash ⟨n % 16, Nat.mod_lt n (by decide)⟩).symm, h⟩
      rw [Nat.toDigitsCore]
      split
      · exact hcons
      · exact ih _ _ hcons
  exact core _ _ _ List.not_mem_nil

theorem isName_scratchName (id : Nat) : IsName (scratchName id).toList := by
  have htext : (scratchName id).toList =
      ['q', 'u', 'i', 'l', 'l', '_'] ++
        (List.replicate (32 - (Nat.toDigits 16 id).length) '0' ++ Nat.toDigits 16 id) := by
    rw [scratchName, String.toList_append, String.toList_ofList]
    rfl
  rw [htext]
  refine ⟨nofun, nofun, nofun, ?_⟩
  rw [List.mem_append, List.mem_append]
  rintro (h | h | h)
  · exact absurd h (by decide)
  · exact absurd (List.eq_of_mem_replicate h) (by decide)
  · exact slash_notMem_toDigits id h

namespace Compiler

/-! ## What a process changes -/

section

variable {d e : Disk}

theorem grows_foldl {α : Type} {f : Disk → α → Disk} (hf : ∀ d x, d.Grounded → Grows d (f d x))
    (xs : List α) (hd : d.Grounded) : Grows d (xs.foldl f d) := by
  induction xs generalizing d with
  | nil => exact Grows.refl d
  | cons x xs ih => exact (hf d x hd).trans (ih ((hf d x hd).grounded hd))

theorem shrinks_foldl {α : Type} {f : Disk → α → Disk} (hf : ∀ d x, Shrinks d (f d x))
    (xs : List α) (d : Disk) : Shrinks d (xs.foldl f d) := by
  induction xs generalizing d with
  | nil => exact Shrinks.refl d
  | cons x xs ih => exact (hf d x).trans (ih (f d x))

theorem grows_attempt_write (hd : d.Grounded) (path : String) (bytes : List UInt8) :
    Grows d (attempt d (d.write path bytes)) := by
  cases h : d.write path bytes with
  | error => exact Grows.refl d
  | ok e => exact (write_eq_ok hd h).1

namespace Behaviour

def written (b : Behaviour) (d : Disk) (folder : String) : Disk :=
  b.writes.foldl (fun d (name, bytes) => attempt d (d.write (append folder name) bytes)) d

def made (b : Behaviour) (d : Disk) (folder : String) : Disk :=
  b.directories.foldl (fun d name => (d.makeDirs (append folder name)).1) d

def removed (b : Behaviour) (d : Disk) (folder : String) : Disk :=
  b.removes.foldl (fun d name =>
    match d.place (append folder name) with
    | .ok p => d.eraseTree p
    | .error _ => d) d

theorem change_eq (b : Behaviour) (d : Disk) (folder : String) :
    b.change d folder = b.removed (b.made (b.written d folder) folder) folder := by
  rfl

theorem grows_written (b : Behaviour) (hd : d.Grounded) (folder : String) :
    Grows d (b.written d folder) :=
  grows_foldl (fun _ _ hd => grows_attempt_write hd _ _) b.writes hd

theorem grows_made (b : Behaviour) (hd : d.Grounded) (folder : String) :
    Grows d (b.made d folder) :=
  grows_foldl (fun _ _ hd => (adds_makeDirs hd _).grows) b.directories hd

theorem shrinks_removed (b : Behaviour) (d : Disk) (folder : String) :
    Shrinks d (b.removed d folder) := by
  refine shrinks_foldl (fun d name => ?_) b.removes d
  split
  · exact Shrinks.eraseTree d _
  · exact Shrinks.refl d

/-- A directory is still one after a process has changed its directory, or it is gone. -/
theorem change_dir (b : Behaviour) (hd : d.Grounded) (folder : String) {q : Place}
    (hq : d.node? q = some .dir) :
    (b.change d folder).node? q = some .dir ∨ (b.change d folder).node? q = none := by
  have hw := b.grows_written hd folder
  have hm := b.grows_made (hw.grounded hd) folder
  rw [change_eq]
  rcases (b.shrinks_removed (b.made (b.written d folder) folder) folder).node q with h | h
  · exact .inl (by rw [h, hm.dir q (hw.dir q hq)])
  · exact .inr h

theorem change_current (b : Behaviour) (hd : d.Grounded) (folder : String) :
    (b.change d folder).current = d.current := by
  have hw := b.grows_written hd folder
  have hm := b.grows_made (hw.grounded hd) folder
  rw [change_eq, (b.shrinks_removed _ folder).current, hm.current, hw.current]

theorem change_grounded (b : Behaviour) (hd : d.Grounded) (folder : String) :
    (b.change d folder).Grounded := by
  have hw := b.grows_written hd folder
  have hm := b.grows_made (hw.grounded hd) folder
  rw [change_eq]
  exact (b.shrinks_removed _ folder).grounded (hm.grounded (hw.grounded hd))

/-- The process changes nothing outside its directory. -/
def Confined (b : Behaviour) : Prop :=
  ∀ (d : Disk) (folder : String) (p : Place), d.Grounded → d.place folder = .ok p →
    d.node? p = some .dir → ∀ q, ¬ p <+: q → (b.change d folder).node? q = d.node? q

end Behaviour

end

/-! ## Beside a scratch directory -/

/-- A path for a scratch directory at a place where nothing is. -/
structure Free (d : Disk) (folder : String) (p : Place) : Prop where
  grounded : d.Grounded
  place : d.place folder = .ok p
  free : d.node? p = none

/-- A disk that differs from `d` only in a directory at `p`, which may be gone again. -/
structure Beside (d : Disk) (p : Place) (e : Disk) : Prop where
  current : e.current = d.current
  grounded : e.Grounded
  outside : ∀ q, ¬ p <+: q → e.node? q = d.node? q
  folder : e.node? p = some .dir ∨ e.node? p = none

section

variable {d e f : Disk} {folder : String} {p : Place}

theorem Free.ne_nil (h : Free d folder p) : p ≠ [] := by
  rintro rfl
  have := h.free
  simp at this

theorem Free.below (h : Free d folder p) {q : Place} (hq : p <+: q) : d.node? q = none := by
  by_contra hsome
  obtain ⟨n, hn⟩ := Option.ne_none_iff_exists'.1 hsome
  by_cases hne : p = q
  · rw [← hne, h.free] at hn
    cases hn
  · have := h.grounded.above hn hq hne
    rw [h.free] at this
    cases this

theorem Free.place_beside (h : Free d folder p) (he : Beside d p e) : e.place folder = .ok p := by
  have hwalk : e.walk d.current (components folder) = .ok p := by
    refine walk_mono h.place fun r hr => ?_
    rw [he.outside r fun hpre => ?_, hr]
    rw [h.below hpre] at hr
    cases hr
  rw [Disk.place, he.current, hwalk]

theorem Free.follow_eq (h : Free d folder p) : d.current.follow (components folder) = p :=
  (walk_eq_ok_iff.1 h.place).1.symm

theorem Free.dir (h : Free d folder p) (he : Beside d p e) {name : String}
    (hname : IsName name.toList) {q : Place} (hq : e.place (append folder name) = .ok q) :
    e.node? p = some .dir := by
  rw [Disk.place, components_append_name hname] at hq
  have := (walk_append_eq_ok hq (List.cons_ne_nil _ _)).2
  rwa [he.current, h.follow_eq] at this

theorem Beside.write (he : Beside d p e) (hp : d.current.follow (components folder) = p)
    (hdir : e.node? p = some .dir) {name : String} (hname : Down name) {bytes : List UInt8}
    (hw : e.write (append folder name) bytes = .ok f) : Beside d p f ∧ f.node? p = some .dir := by
  obtain ⟨hgrows, q, k, hplace, hne, rfl⟩ := write_eq_ok he.grounded hw
  have hpre := prefix_place hname hplace
  rw [he.current, hp] at hpre
  have hpdir := hgrows.dir p hdir
  refine ⟨⟨hgrows.current.trans he.current, hgrows.grounded he.grounded, fun r hr => ?_,
    .inl hpdir⟩, hpdir⟩
  rw [node?_put hne, if_neg, he.outside r hr]
  rintro rfl
  exact hr hpre

theorem Beside.change (he : Beside d p e) (h : Free d folder p) (hdir : e.node? p = some .dir)
    {b : Behaviour} (hb : b.Confined) : Beside d p (b.change e folder) where
  current := (b.change_current he.grounded folder).trans he.current
  grounded := b.change_grounded he.grounded folder
  outside q hq := by
    rw [hb e folder p he.grounded (h.place_beside he) hdir q hq, he.outside q hq]
  folder := b.change_dir he.grounded folder hdir

theorem Beside.makeDirs (he : Beside d p e) (hplace : e.place folder = .ok p)
    (hdir : e.node? p = some .dir) {name : String} (hname : Down name) :
    Beside d p (e.makeDirs (append folder name)).1 := by
  have hadds := adds_makeDirs he.grounded (append folder name)
  refine ⟨hadds.current.trans he.current, hadds.grounded he.grounded, fun q hq => ?_,
    .inl (hadds.grows.dir p hdir)⟩
  rcases hadds.node q with h | ⟨hnone, -, a, -, ha, rfl⟩
  · rw [h, he.outside q hq]
  · obtain ⟨cs, hcs, hdown⟩ := hname.components_append folder
    obtain ⟨hp, habove⟩ := walk_eq_ok_iff.1 hplace
    rw [hcs] at ha
    rcases List.prefix_or_prefix_of_prefix ha (List.prefix_append _ cs) with
      ⟨b, hb⟩ | ⟨b, rfl⟩
    · -- on the way to the directory there are directories already
      have hthere : e.node? (e.current.follow a) = some .dir := by
        by_cases hnil : b = []
        · rw [hnil, List.append_nil] at hb
          rw [hb, ← hp, hdir]
        · exact habove a b hb.symm hnil
      rw [hnone] at hthere
      cases hthere
    · rw [List.prefix_append_right_inj] at ha
      rw [follow_append, ← hp] at hq
      exact absurd (prefix_follow (fun c hc => hdown c (ha.subset hc)) p) hq

theorem Beside.eraseTree (he : Beside d p e) {q : Place} (hq : p <+: q) :
    Beside d p (e.eraseTree q) := by
  have hshrinks := Shrinks.eraseTree e q
  refine ⟨hshrinks.current.trans he.current, hshrinks.grounded he.grounded, fun r hr => ?_, ?_⟩
  · rw [← he.outside r hr]
    by_cases hnil : q = []
    · rw [hnil, List.prefix_nil] at hq
      exact absurd (hq ▸ List.nil_prefix) hr
    · rw [node?_eraseTree hnil, if_neg fun hpre => hr (hq.trans hpre)]
  · rcases hshrinks.node p with h | h
    · rw [h]
      exact he.folder
    · exact .inr h

/-- Without the directory the disk is as before. -/
theorem Beside.removePath (he : Beside d p e) (h : Free d folder p) (q : Place) :
    (e.removePath folder).node? q = d.node? q := by
  rw [Disk.removePath, h.place_beside he]
  simp only
  by_cases hq : p <+: q
  · rw [h.below hq]
    rcases he.folder with hdir | hnone
    · rw [node?_removeDir he.grounded h.ne_nil hdir, if_pos hq]
    · rw [removeDir, if_neg (by simp [hnone])]
      by_contra hsome
      obtain ⟨n, hn⟩ := Option.ne_none_iff_exists'.1 hsome
      by_cases hne : p = q
      · rw [← hne, hnone] at hn
        cases hn
      · have := he.grounded.above hn hq hne
        rw [hnone] at this
        cases this
  · rw [← he.outside q hq]
    rcases he.folder with hdir | hnone
    · rw [node?_removeDir he.grounded h.ne_nil hdir, if_neg hq]
    · rw [removeDir, if_neg (by simp [hnone])]

/-! ## Inside a scratch directory -/

theorem isName_logName : IsName logName.toList := ⟨by decide, by decide, by decide, by decide⟩

theorem exists_place_of_read? {path : String} {bytes : List UInt8} (h : e.read? path = some bytes) :
    ∃ q, e.place path = .ok q := by
  unfold read? find? at h
  split at h
  · rename_i hfind
    split at hfind
    · cases hfind
    · split at hfind
      · cases hfind
      · exact ⟨_, ‹_›⟩
  · cases h

theorem Beside.run (he : Beside d p e) (h : Free d folder p) (hdir : e.node? p = some .dir)
    {b : Behaviour} (hb : b.Confined) :
    Beside d p (b.run e folder (append folder logName)) := by
  have hchange := he.change h hdir hb
  unfold Behaviour.run
  simp only
  split
  · rename_i old hread
    obtain ⟨q, hq⟩ := exists_place_of_read? hread
    have hthere := h.dir hchange isName_logName hq
    unfold attempt
    split
    · exact (hchange.write h.follow_eq hthere isName_logName.down ‹_›).1
    · exact hchange
  · exact hchange

variable {s : Settings} {g : Registry} {compiler : List String → Behaviour} {r : Request}

end

/-- The disk once the directory for scratch directories has been made. -/
def prepared (s : Settings) (d : Disk) : Disk := (d.makeDirs s.tempDir).1

/-- What a compilation makes of the result of the steps in its scratch directory. -/
def ended (folder : String) : Disk × Except RunError Output → Disk × Except RunError Output
  | (e, .ok o) => (e, .ok o)
  | (e, .error x) => (e.removePath folder, .error x)

section

variable {folder : String} {x : Disk × Except RunError Output} {e : Disk}

theorem ended_eq_ok_iff {o : Output} : ended folder x = (e, .ok o) ↔ x = (e, .ok o) := by
  obtain ⟨f, y | o'⟩ := x <;> simp [ended]

end

/-- The ways of a compilation: no files for a reference, no scratch directory, or steps in one. -/
theorem compile_cases (s : Settings) (g : Registry) (compiler : List String → Behaviour)
    (names : Nat → String) (r : Request) (d : Disk) :
    (∃ x, ∀ other, compile s g other names r d = (d, .error (.unsupportedReference x))) ∨
    compile s g compiler names r d = (prepared s d, .error (.noScratch s.tempDir)) ∨
    ∃ e folder files j, folder = append s.tempDir (names j) ∧
      (prepared s d).makeDir folder = .ok e ∧
      compile s g compiler names r d = ended folder (compileIn s g compiler r files e folder) := by
  unfold compile
  cases referenceFiles r.references with
  | error x => exact .inl ⟨x, fun _ => rfl⟩
  | ok files =>
    refine .inr ?_
    simp only [createNamed, prepared]
    cases d.makeDirs s.tempDir with
    | mk f made =>
      cases made with
      | error x => exact .inl rfl
      | ok =>
        simp only
        cases hcreate : f.createFrom s.tempDir names scratchAttempts 0 with
        | error x => exact .inl rfl
        | ok created =>
          obtain ⟨e, folder⟩ := created
          obtain ⟨j, hfolder, hmake⟩ := createFrom_eq_ok hcreate
          refine .inr ⟨e, folder, files, j, hfolder, hmake, ?_⟩
          simp only
          cases compileIn s g compiler r files e folder with
          | mk e' result => cases result <;> rfl

section

variable {s : Settings} {g : Registry} {compiler : List String → Behaviour} {ids : Nat → Nat}
  {r : Request} {d e : Disk}

end

end Compiler
end Sigil
