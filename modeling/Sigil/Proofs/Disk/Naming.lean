import Sigil.Disk.Scratch
import Sigil.Proofs.Disk.Tree

/-!
# Names of new directories

A scratch directory gets the first name under its root where nothing is. Names are drawn as they are
needed (`run_createDrawing`): a name that is taken is followed by the next draw, up to ten times,
and any other failure ends the search. Nothing is made but that directory (`createNamed_first`) and
the directories that are missing on the way to the root. These stand above the root, unless the
root's path goes up (`up_makes_more`).
-/

namespace Sigil.Disk

open Sigil.Path

variable {d e : Disk} {p q : Place}

/-! ## Making a root -/

theorem makeDirAt_of_isDirAt {cs : List Component} (h : d.isDirAt cs = true) :
    d.makeDirAt cs = .error .alreadyExists := by
  unfold isDirAt at h
  split at h
  · rename_i p hwalk
    have hdir : d.node? p = some .dir := by simpa using h
    simp only [makeDirAt, hwalk, bind, Except.bind, hdir]
  · cases h

theorem makeDirsAt_of_isDirAt {cs : List Component} (h : d.isDirAt cs = true) :
    d.makeDirsAt cs = (d, .ok ()) := by
  rw [makeDirsAt]
  split
  · rfl
  · simp only [makeDirAt_of_isDirAt h]

theorem isDirAt_of_isDir {path : String} (h : d.isDir path = true) :
    d.isDirAt (components path) = true := by
  unfold isDir find? at h
  split at h
  · cases h
  · unfold isDirAt
    have hplace : d.walk d.current (components path) = d.place path := rfl
    rw [hplace]
    split at h
    · cases h
    · rename_i p hp
      simp only [hp]
      split at h
      · split at h <;> cases h
      · exact h

theorem makeDirs_of_isDir {path : String} (h : d.isDir path = true) :
    d.makeDirs path = (d, .ok ()) := makeDirsAt_of_isDirAt (isDirAt_of_isDir h)

/-- Above and at the place of a path without a step up. -/
theorem onWay_prefix {path : String} (hup : Component.up ∉ components path) {from_ q : Place}
    (h : OnWay from_ (components path) q) : q <+: from_.follow (components path) := by
  obtain ⟨a, ha, ⟨b, hb⟩, rfl⟩ := h
  obtain ⟨c, a, rfl⟩ := List.exists_cons_of_ne_nil ha
  rw [← hb, follow_append]
  refine prefix_follow (fun x hx => ?_) _
  have htail : x ∈ (components path).tail := by
    rw [← hb]
    exact List.mem_append_right _ hx
  have hmem : x ∈ components path := List.mem_of_mem_tail htail
  rcases mem_tail_components htail with rfl | ⟨s, rfl⟩
  · exact absurd hmem hup
  · exact ⟨nofun, nofun⟩

/-- Making a directory whose path has no step up makes nothing below it. -/
theorem makeDirs_below {path : String} (hd : d.Grounded) (hup : Component.up ∉ components path)
    {t : Place} (ht : (d.makeDirs path).1.place path = .ok t) (hq : t <+: q) (hne : q ≠ t) :
    (d.makeDirs path).1.node? q = d.node? q := by
  have hadds := adds_makeDirs hd path
  refine (hadds.node q).resolve_right fun hnew => hne ?_
  have hway := onWay_prefix hup hnew.2.2
  have hplace := (walk_eq_ok_iff.1 ht).1
  rw [hadds.current] at hplace
  rw [← hplace] at hway
  exact hway.eq_of_length_le hq.length_le

/-! ## Drawing names -/

/-- The next name is tried if there is something at this one. -/
theorem createFrom_succ (d : Disk) (root : String) (names : Nat → String) (n k : Nat) :
    d.createFrom root names (n + 1) k =
      match d.makeDir (append root (names k)) with
      | .ok e => .ok (e, append root (names k))
      | .error .alreadyExists => d.createFrom root names n (k + 1)
      | .error x => .error x := by
  rfl

theorem createFrom_eq_ok {root path : String} {names : Nat → String} {n k : Nat}
    (h : d.createFrom root names n k = .ok (e, path)) :
    ∃ j, path = append root (names j) ∧ d.makeDir path = .ok e := by
  induction n generalizing k with
  | zero => cases h
  | succ n ih =>
    rw [createFrom_succ] at h
    split at h
    · cases h
      exact ⟨k, rfl, ‹_›⟩
    · exact ih h
    · cases h

section

variable {m : Type → Type} [Monad m]

/-- A directory under `root` with the first free name of those that `draw` gives. -/
def createDrawing (draw : m String) (d : Disk) (root : String) :
    (attempts : Nat) → m (Except DiskError (Disk × String))
  | 0 => return .error .alreadyExists
  | n + 1 => do
    let path := append root (← draw)
    match d.makeDir path with
    | .ok e => return .ok (e, path)
    | .error .alreadyExists => createDrawing draw d root n
    | .error x => return .error x

/-- `createNamed` with names that are drawn as they are needed. -/
def createNamedDrawing (draw : m String) (d : Disk) (root : String) :
    m (Disk × Except DiskError String) :=
  match d.makeDirs root with
  | (d, .error x) => return (d, .error x)
  | (d, .ok ()) => do
    match ← createDrawing draw d root scratchAttempts with
    | .ok (e, path) => return (e, .ok path)
    | .error x => return (d, .error x)

end

/-- The next name of a stream; the state is the number of names that have been drawn. -/
def nextOf (names : Nat → String) : StateM Nat String := fun k => (names k, k + 1)

section

variable {root : String} {names : Nat → String}

def Taken (d : Disk) (root name : String) : Prop :=
  d.makeDir (append root name) = .error .alreadyExists

theorem createDrawing_succ (d : Disk) (root : String) (names : Nat → String) (n k : Nat) :
    (createDrawing (nextOf names) d root (n + 1)).run k =
      match d.makeDir (append root (names k)) with
      | .ok e => (.ok (e, append root (names k)), k + 1)
      | .error .alreadyExists => (createDrawing (nextOf names) d root n).run (k + 1)
      | .error x => (.error x, k + 1) := by
  have hdraw : (nextOf names).run k = pure (names k, k + 1) := rfl
  rw [createDrawing, StateT.run_bind, hdraw, pure_bind]
  simp only
  cases d.makeDir (append root (names k)) with
  | ok e => rfl
  | error x => cases x <;> rfl

/-- What is made does not depend on how the names are drawn. -/
theorem fst_createDrawing (d : Disk) (root : String) (names : Nat → String) (n k : Nat) :
    ((createDrawing (nextOf names) d root n).run k).1 = d.createFrom root names n k := by
  induction n generalizing k with
  | zero => rfl
  | succ n ih =>
    rw [createDrawing_succ, createFrom_succ]
    split
    · rfl
    · exact ih (k + 1)
    · rfl

theorem createDrawing_add {j k : Nat} (h : ∀ i < j, Taken d root (names (k + i))) (n : Nat) :
    (createDrawing (nextOf names) d root (j + n)).run k =
      (createDrawing (nextOf names) d root n).run (k + j) := by
  induction j generalizing k with
  | zero => rw [Nat.zero_add, Nat.add_zero]
  | succ j ih =>
    have hfirst : Taken d root (names k) := h 0 (Nat.succ_pos j)
    have hrest : ∀ i < j, Taken d root (names (k + 1 + i)) := by
      intro i hi
      rw [Nat.add_right_comm k 1 i]
      exact h (i + 1) (Nat.succ_lt_succ hi)
    have hstep := createDrawing_succ d root names (j + n) k
    rw [hfirst] at hstep
    rw [Nat.add_right_comm j 1 n, hstep]
    simp only
    rw [ih hrest, Nat.add_right_comm k 1 j]
    rfl

/-- What is made under a root, and how many names are drawn for it. -/
theorem run_createNamedDrawing {d₁ : Disk} (hroot : d.makeDirs root = (d₁, .ok ()))
    (names : Nat → String) :
    (createNamedDrawing (nextOf names) d root).run 0 =
      match (createDrawing (nextOf names) d₁ root scratchAttempts).run 0 with
      | (.ok (e, path), k) => ((e, .ok path), k)
      | (.error x, k) => ((d₁, .error x), k) := by
  rw [createNamedDrawing, hroot]
  simp only [StateT.run_bind]
  cases (createDrawing (nextOf names) d₁ root scratchAttempts).run 0 with
  | mk r k => cases r <;> rfl

theorem fst_createNamedDrawing (d : Disk) (root : String) (names : Nat → String) :
    ((createNamedDrawing (nextOf names) d root).run 0).1 = d.createNamed root names := by
  cases hroot : d.makeDirs root with
  | mk d₁ made =>
    cases made with
    | error x =>
      rw [createNamedDrawing, createNamed, hroot]
      rfl
    | ok =>
      rw [run_createNamedDrawing hroot, createNamed, hroot]
      simp only
      rw [← fst_createDrawing]
      cases (createDrawing (nextOf names) d₁ root scratchAttempts).run 0 with
      | mk r k => cases r <;> rfl

/-! ## The first free name -/

/-- Names that are taken leave the attempts that remain. -/
theorem createDrawing_behind {k : Nat} (hk : k < scratchAttempts)
    (h : ∀ j < k, Taken d root (names j)) :
    ∃ n, (createDrawing (nextOf names) d root scratchAttempts).run 0 =
      (createDrawing (nextOf names) d root (n + 1)).run k := by
  obtain ⟨n, hn⟩ : ∃ n, scratchAttempts = k + (n + 1) := ⟨scratchAttempts - k - 1, by omega⟩
  refine ⟨n, ?_⟩
  rw [hn, createDrawing_add fun i hi => ?_, Nat.zero_add]
  rw [Nat.zero_add]
  exact h i hi

/-- A directory that can be made is the only change. -/
theorem makeDir_eq_ok {path : String} (h : d.makeDir path = .ok e) :
    ∃ p, e.place path = .ok p ∧ d.node? p = none ∧ e.node? p = some .dir ∧
      ∀ q, q ≠ p → e.node? q = d.node? q := by
  obtain ⟨p, hwalk, hfree, rfl⟩ := makeDirAt_eq_ok h
  have hp : p ≠ [] := by
    rintro rfl
    simp at hfree
  have hself : (d.put p .dir).node? p = some .dir := by rw [node?_put hp, if_pos rfl]
  have hother : ∀ q, q ≠ p → (d.put p .dir).node? q = d.node? q := by
    intro q hq
    rw [node?_put hp, if_neg hq]
  refine ⟨p, walk_mono hwalk fun r hr => ?_, hfree, hself, hother⟩
  rw [hother r, hr]
  rintro rfl
  cases hfree.symm.trans hr

theorem createNamed_eq_error {d₁ : Disk} (hroot : d.makeDirs root = (d₁, .ok ())) {x : DiskError}
    (h : d.createNamed root names = (e, .error x)) : e = d₁ := by
  rw [createNamed, hroot] at h
  simp only at h
  split at h
  · cases h
  · cases h
    rfl

/-- Under a root that is there or can be made, a scratch directory gets the first of ten names at
which nothing is in the way. It has not been there before, and it is the only change since the root
has been made. Another error at the first name that is not taken is the result, and so is the
collision when all ten are taken: these change nothing, and no further name is drawn. Making the
root adds nothing but directories that were missing on the way along its path, nothing at all if it
is a directory already, and nothing below it unless its path goes up. -/
theorem createNamed_first (names : Nat → String) (hd : d.Grounded)
    (hroot : (d.makeDirs root).2 = .ok ()) :
    let d₁ := (d.makeDirs root).1
    let drawn := (createNamedDrawing (nextOf names) d root).run 0
    drawn.1 = d.createNamed root names ∧
    (∀ k < scratchAttempts, (∀ j < k, Taken d₁ root (names j)) →
      (∀ e, d₁.makeDir (append root (names k)) = .ok e →
        drawn = ((e, .ok (append root (names k))), k + 1) ∧
        ∃ p, e.place (append root (names k)) = .ok p ∧ d.node? p = none ∧
          e.node? p = some .dir ∧ ∀ q, q ≠ p → e.node? q = d₁.node? q) ∧
      ∀ x, d₁.makeDir (append root (names k)) = .error x → x ≠ .alreadyExists →
        drawn = ((d₁, .error x), k + 1)) ∧
    ((∀ j < scratchAttempts, Taken d₁ root (names j)) →
      drawn = ((d₁, .error .alreadyExists), scratchAttempts)) ∧
    (∀ e x, d.createNamed root names = (e, .error x) → e = d₁) ∧
    (∀ q, d₁.node? q = d.node? q ∨ d.node? q = none ∧ d₁.node? q = some .dir ∧
      OnWay d.current (components root) q) ∧
    (d.isDir root = true → d₁ = d) ∧
    (.up ∉ components root → ∀ t, d₁.place root = .ok t →
      ∀ q, t <+: q → q ≠ t → d₁.node? q = d.node? q) := by
  intro d₁ drawn
  have hmade : d.makeDirs root = (d₁, .ok ()) := Prod.ext rfl hroot
  have hrun : drawn = _ := run_createNamedDrawing hmade names
  have hadds := adds_makeDirs hd root
  refine ⟨fst_createNamedDrawing d root names, fun k hk htaken => ?_, fun htaken => ?_,
    fun e x h => createNamed_eq_error hmade h, hadds.node, fun h => ?_,
    fun hup t ht q hq hne => makeDirs_below hd hup ht hq hne⟩
  · obtain ⟨n, hn⟩ := createDrawing_behind hk htaken
    rw [hn, createDrawing_succ] at hrun
    refine ⟨fun e he => ?_, fun x hx hne => ?_⟩
    · rw [he] at hrun
      obtain ⟨p, hplace, hfree, hdir, hother⟩ := makeDir_eq_ok he
      have hbefore : d.node? p = none := by
        rcases hadds.node p with hsame | ⟨hnone, -⟩
        · exact hsame.symm.trans hfree
        · exact hnone
      exact ⟨hrun, p, hplace, hbefore, hdir, hother⟩
    · rw [hx] at hrun
      cases x with
      | alreadyExists => exact absurd rfl hne
      | _ => exact hrun
  · have hall := createDrawing_add (k := 0) (j := scratchAttempts)
      (fun i hi => by rw [Nat.zero_add]; exact htaken i hi) 0
    rw [Nat.add_zero, Nat.zero_add] at hall
    rw [hall] at hrun
    exact hrun
  · exact congrArg Prod.fst (makeDirs_of_isDir h)

end

/-- A file is in the way of the first name. -/
theorem second_name_is_free :
    let d : Disk := ⟨[(["t"], .dir), (["t", "a"], .file .data [])], []⟩
    let names : Nat → String := fun k => if k = 0 then "a" else "b"
    d.Grounded ∧ (d.makeDirs "/t").2 = .ok () ∧
      ∃ e, (createNamedDrawing (nextOf names) d "/t").run 0 = ((e, .ok "/t/b"), 2) ∧
        e.node? ["t", "a"] = some (.file .data []) := by
  intro d names
  have hd : d.Grounded := grounded_of_entries (by decide)
  have hroot : (d.makeDirs "/t").2 = .ok () := by decide +kernel
  have hsame : (d.makeDirs "/t").1 = d := congrArg Prod.fst (makeDirs_of_isDir (by decide +kernel))
  have hfirst := (createNamed_first names hd hroot).2.1 1 (by decide)
  simp only [hsame] at hfirst
  have htaken : ∀ j < 1, Taken d "/t" (names j) := by
    intro j hj
    have hpath : append "/t" (names 0) = "/t/a" := by decide +kernel
    rw [Nat.lt_one_iff.1 hj, Taken, hpath]
    rfl
  have hpath : append "/t" (names 1) = "/t/b" := by decide +kernel
  have hmade : d.makeDir "/t/b" = .ok (d.put ["t", "b"] .dir) := rfl
  simp only [hpath] at hfirst
  obtain ⟨hdrawn, p, -, hfree, -, hother⟩ := (hfirst htaken).1 _ hmade
  refine ⟨hd, hroot, _, hdrawn, ?_⟩
  rw [hother]
  · decide
  · rintro rfl
    cases hfree

/-- A root whose path goes up has a directory more under it. -/
theorem up_makes_more :
    ¬ ∀ (d : Disk) (root : String) (names : Nat → String), d.Grounded →
      (d.makeDirs root).2 = .ok () → ∀ e path, d.createNamed root names = (e, .ok path) →
        ∀ t p, e.place root = .ok t → e.place path = .ok p →
          ∀ q, t <+: q → q ≠ t → q ≠ p → e.node? q = d.node? q := by
  intro h
  have hd : Grounded ⟨[], []⟩ := grounded_of_entries nofun
  have hmade : ∃ e, createNamed ⟨[], []⟩ "/n/m/.." (fun _ => "x") = (e, .ok "/n/m/../x") ∧
      e.place "/n/m/.." = .ok ["n"] ∧ e.place "/n/m/../x" = .ok ["n", "x"] ∧
      e.node? ["n", "m"] = some .dir := by
    refine ⟨(createNamed ⟨[], []⟩ "/n/m/.." (fun _ => "x")).1, Prod.ext rfl ?_, ?_, ?_, ?_⟩
    all_goals decide +kernel
  obtain ⟨e, hcreated, ht, hp, hmore⟩ := hmade
  have hsame := h ⟨[], []⟩ "/n/m/.." _ hd (by decide +kernel) e _ hcreated _ _ ht hp ["n", "m"]
    ⟨["m"], rfl⟩ (by decide) (by decide)
  exact absurd (hmore.symm.trans hsame) (by decide)

end Sigil.Disk
