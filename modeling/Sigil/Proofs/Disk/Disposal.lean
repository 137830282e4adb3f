import Sigil.Disk.Scratch
import Sigil.Proofs.Disk.Tree

/-!
# Disposal of scratch directories

The artifacts of a compilation are disposed of on request and when they are dropped, while others
make and remove what they like in the scratch directory. Whatever the order of it all, the artifacts
remove their directory the first time that they are told to and leave the disk alone from then on
(`disposes_once`): a directory that somebody makes there again stays.
-/

namespace Sigil

open Sigil.Path

namespace Disk

variable {d e f : Disk} {p q : Place}

/-! ## Changes below a place -/

/-- Only what is at a place or below it has changed. -/
structure Within (p : Place) (d e : Disk) : Prop where
  current : e.current = d.current
  grounded : d.Grounded → e.Grounded
  outside : ∀ q, ¬ p <+: q → e.node? q = d.node? q

theorem Within.refl (p : Place) (d : Disk) : Within p d d := ⟨rfl, id, fun _ _ => rfl⟩

theorem Within.trans (h : Within p d e) (k : Within p e f) : Within p d f :=
  ⟨k.current.trans h.current, k.grounded ∘ h.grounded,
    fun q hq => (k.outside q hq).trans (h.outside q hq)⟩

theorem Within.mono (h : Within q d e) (hp : p <+: q) : Within p d e :=
  ⟨h.current, h.grounded, fun r hr => h.outside r fun hq => hr (hp.trans hq)⟩

/-- A file that is written at or below the place. -/
theorem within_write (hd : d.Grounded) {path : String} {bytes : List UInt8}
    (hp : p <+: d.current.follow (components path)) (h : d.write path bytes = .ok e) :
    Within p d e := by
  obtain ⟨hgrows, q, k, hplace, hq, rfl⟩ := write_eq_ok hd h
  refine ⟨rfl, hgrows.grounded, fun r hr => ?_⟩
  rw [node?_put hq, if_neg]
  rintro rfl
  rw [(walk_eq_ok_iff.1 hplace).1] at hr
  exact hr hp

/-- A directory that is made at or below the place. -/
theorem within_makeDir (hd : d.Grounded) {path : String} (hpath : path ≠ "")
    (hp : p <+: d.current.follow (components path)) (h : d.makeDir path = .ok e) :
    Within p d e := by
  have hadds := adds_makeDirAt (components_ne_nil hpath) h hd
  obtain ⟨q, hwalk, hnone, rfl⟩ := makeDirAt_eq_ok h
  obtain ⟨hq, -⟩ := parent_of_walk hd hwalk (components_ne_nil hpath) hnone
  refine ⟨rfl, hadds.grounded, fun r hr => ?_⟩
  rw [node?_put hq, if_neg]
  rintro rfl
  rw [(walk_eq_ok_iff.1 hwalk).1] at hr
  exact hr hp

theorem within_getD {x : Except DiskError Disk} (h : ∀ e, x = .ok e → Within p d e) :
    Within p d (x.toOption.getD d) := by
  cases x with
  | error => exact Within.refl p d
  | ok e => exact h e rfl

theorem current_removeDir (d : Disk) (p : Place) : (d.removeDir p).current = d.current := by
  by_cases h : d.node? p = some .dir
  · rw [removeDir_eq h, removeEmpty]
    split <;> rfl
  · rw [removeDir, if_neg h]

theorem node?_removeDir_root (hd : d.Grounded) (hq : q ≠ []) : (d.removeDir []).node? q = none := by
  have hemptied : (d.emptied []).node? q = none := by
    rw [node?_emptied hd, if_pos ⟨List.nil_prefix, hq, hq⟩]
  rw [removeDir_eq (node?_root d), removeEmpty]
  split
  · have hnode := node?_filter (fun q => decide (q ≠ [])) (d.emptied []) q
    rw [hnode, hemptied, ite_self]
  · exact hemptied

theorem grounded_removeDir (hd : d.Grounded) (h : d.node? p = some .dir) :
    (d.removeDir p).Grounded := by
  intro q n hq
  by_cases hp : p = []
  · subst hp
    have hroot : q = [] := by
      by_contra hne
      rw [node?_removeDir_root hd hne] at hq
      cases hq
    rw [hroot]
    exact node?_root _
  · rw [node?_removeDir hd hp h] at hq ⊢
    split at hq
    · cases hq
    · rename_i hout
      rw [if_neg fun hpre => hout (hpre.trans (List.dropLast_prefix q))]
      exact hd q n hq

theorem within_removeDir (hd : d.Grounded) (p : Place) : Within p d (d.removeDir p) := by
  by_cases h : d.node? p = some .dir
  · refine ⟨current_removeDir d p, fun hd => grounded_removeDir hd h, fun q hq => ?_⟩
    have hp : p ≠ [] := by
      rintro rfl
      exact hq List.nil_prefix
    rw [node?_removeDir hd hp h, if_neg hq]
  · rw [removeDir, if_neg h]
    exact Within.refl p d

/-- A directory that is removed at or below the place. -/
theorem within_removePath (hd : d.Grounded) {path : String}
    (hp : p <+: d.current.follow (components path)) : Within p d (d.removePath path) := by
  unfold removePath
  split
  · rename_i q hplace
    rw [← (walk_eq_ok_iff.1 hplace).1] at hp
    exact (within_removeDir hd q).mono hp
  · exact Within.refl p d

theorem place_of_isDir {path : String} (h : d.isDir path = true) :
    ∃ q, d.place path = .ok q ∧ d.node? q = some .dir := by
  rw [isDir, beq_iff_eq, find?] at h
  split at h
  · cases h
  · split at h
    · cases h
    · rename_i q hplace
      refine ⟨q, hplace, ?_⟩
      split at h
      · split at h <;> cases h
      · exact h

/-- A directory that is removed is gone with all that is in it. -/
theorem node?_removePath (hd : d.Grounded) {path : String}
    (hp : d.current.follow (components path) = p) (hne : p ≠ []) (h : d.isDir path = true)
    (hq : p <+: q) : (d.removePath path).node? q = none := by
  obtain ⟨hplace, hdir⟩ : d.place path = .ok p ∧ d.node? p = some .dir := by
    obtain ⟨q, hplace, hdir⟩ := place_of_isDir h
    have hq : q = p := (walk_eq_ok_iff.1 hplace).1.trans hp
    exact ⟨hq ▸ hplace, hq ▸ hdir⟩
  rw [removePath, hplace]
  simp only
  rw [node?_removeDir hd hne hdir, if_pos hq]

end Disk

/-! ## Histories -/

namespace Artifacts

open Disk

inductive Event where
  | dispose
  /-- The artifacts are dropped, which disposes of them. -/
  | drop
  /-- Others change the disk. -/
  | outside (change : Disk → Disk)

namespace Event

def isOwn : Event → Bool
  | dispose | drop => true
  | outside _ => false

def perform : Event → Artifacts × Disk → Artifacts × Disk
  | dispose, (a, d) | drop, (a, d) => a.dispose d
  | outside change, (a, d) => (a, change d)

/-- What others do in an event. -/
def others : Event → Disk → Disk
  | dispose, d | drop, d => d
  | outside change, d => change d

/-- What others do in an event changes nothing outside a place, on any disk with that current
directory. -/
def Confined (p current : Place) : Event → Prop
  | dispose | drop => True
  | outside change => ∀ f : Disk, f.Grounded → f.current = current → Within p f (change f)

end Event

def history (events : List Event) (s : Artifacts × Disk) : Artifacts × Disk :=
  events.foldl (fun s x => x.perform s) s

/-- The disk after what others do in some events. -/
def surroundings (events : List Event) (d : Disk) : Disk :=
  events.foldl (fun d x => x.others d) d

theorem surroundings_nil (d : Disk) : surroundings [] d = d := rfl

theorem history_append (before after : List Event) (s : Artifacts × Disk) :
    history (before ++ after) s = history after (history before s) := List.foldl_append

theorem history_cons (x : Event) (events : List Event) (s : Artifacts × Disk) :
    history (x :: events) s = history events (x.perform s) := rfl

section

variable {a : Artifacts} {d : Disk} {p : Place} {folder : String}

/-! ### One event -/

theorem dispose_of_not_disposed (h : a.disposed = false) (hfolder : a.folder = some folder)
    (d : Disk) : a.dispose d = ({ a with disposed := true }, d.removePath folder) := by
  rw [Artifacts.dispose, if_neg (by simp [h]), hfolder]
  rfl

theorem perform_of_not_isOwn {x : Event} (h : x.isOwn = false) (s : Artifacts × Disk) :
    x.perform s = (s.1, x.others s.2) := by
  cases x with
  | outside => rfl
  | _ => cases h

theorem perform_of_isOwn {x : Event} (h : x.isOwn = true) (a : Artifacts) (d : Disk) :
    x.perform (a, d) = a.dispose d := by
  cases x with
  | outside => cases h
  | _ => rfl

theorem perform_of_disposed (x : Event) (h : a.disposed = true) (d : Disk) :
    x.perform (a, d) = (a, x.others d) := by
  have hdispose : a.dispose d = (a, d) := by rw [Artifacts.dispose, if_pos h]
  cases x with
  | outside => rfl
  | _ => exact hdispose

theorem folder_perform (x : Event) (s : Artifacts × Disk) :
    (x.perform s).1.folder = s.1.folder := by
  have hdispose : (s.1.dispose s.2).1.folder = s.1.folder := by
    unfold Artifacts.dispose
    split <;> rfl
  cases x with
  | outside => rfl
  | _ => exact hdispose

/-- No event changes anything outside the directory. -/
theorem within_perform {x : Event} (hd : d.Grounded) (hfolder : a.folder = some folder)
    (hp : d.current.follow (components folder) = p) (hx : x.Confined p d.current) :
    Within p d (x.perform (a, d)).2 := by
  have hdispose : Within p d (a.dispose d).2 := by
    cases h : a.disposed with
    | true =>
      rw [Artifacts.dispose, if_pos h]
      exact Within.refl p d
    | false =>
      rw [dispose_of_not_disposed h hfolder]
      exact within_removePath hd (hp ▸ List.prefix_refl p)
  cases x with
  | outside change => exact hx d hd rfl
  | _ => exact hdispose

/-! ### Any number of events -/

/-- As long as they are not told to, the artifacts do nothing. -/
theorem history_of_not_isOwn (events : List Event) (h : ∀ x ∈ events, x.isOwn = false)
    (a : Artifacts) (d : Disk) : history events (a, d) = (a, surroundings events d) := by
  induction events generalizing d with
  | nil => rfl
  | cons x events ih =>
    rw [List.forall_mem_cons] at h
    rw [history_cons, perform_of_not_isOwn h.1]
    exact ih h.2 (x.others d)

theorem history_of_disposed (events : List Event) (h : a.disposed = true) (d : Disk) :
    history events (a, d) = (a, surroundings events d) := by
  induction events generalizing d with
  | nil => rfl
  | cons x events ih =>
    rw [history_cons, perform_of_disposed x h]
    exact ih (x.others d)

/-- The first time that they are told to, the artifacts remove their directory. -/
theorem history_of_first {before : List Event} {own : Event} (hown : own.isOwn = true)
    (hbefore : ∀ x ∈ before, x.isOwn = false) (after : List Event) (ha : a.disposed = false)
    (hfolder : a.folder = some folder) (d : Disk) :
    history (before ++ own :: after) (a, d) = ({ a with disposed := true },
      surroundings after ((surroundings before d).removePath folder)) := by
  rw [history_append, history_of_not_isOwn before hbefore, history_cons, perform_of_isOwn hown,
    dispose_of_not_disposed ha hfolder]
  exact history_of_disposed after rfl _

theorem within_history (events : List Event) (hd : d.Grounded) (hfolder : a.folder = some folder)
    (hp : d.current.follow (components folder) = p)
    (hevents : ∀ x ∈ events, x.Confined p d.current) :
    Within p d (history events (a, d)).2 := by
  induction events generalizing a d with
  | nil => exact Within.refl p d
  | cons x events ih =>
    rw [List.forall_mem_cons] at hevents
    -- an event keeps the folder and the current directory, so the place stays the same
    have hx := within_perform hd hfolder hp hevents.1
    have hrest := ih (hx.grounded hd) ((folder_perform x (a, d)).trans hfolder)
      (hx.current ▸ hp) (hx.current ▸ hevents.2)
    exact hx.trans hrest

end

/-- Artifacts are disposed of and dropped, in any order and any number of times, while others change
what is at or below their directory. All that the artifacts do to the disk is to remove the
directory the first time: then it is gone with all that is in it, if it was there, and the rest of
the disk stays. At no time does anything change outside the directory. -/
theorem disposes_once {d : Disk} (hd : d.Grounded) (source : Option String) (folder : String)
    (events : List Event)
    (hevents : ∀ x ∈ events, x.Confined (d.current.follow (components folder)) d.current) :
    let p := d.current.follow (components folder)
    let a : Artifacts := ⟨source, some folder, false⟩
    (∀ before own after, events = before ++ own :: after → own.isOwn = true →
      (∀ x ∈ before, x.isOwn = false) →
      let found := surroundings before d
      let left := found.removePath folder
      history events (a, d) = ({ a with disposed := true }, surroundings after left) ∧
      (found.isDir folder = true → p ≠ [] → ∀ q, p <+: q → left.node? q = none) ∧
      ∀ q, ¬ p <+: q → left.node? q = found.node? q) ∧
    ((∀ x ∈ events, x.isOwn = false) → history events (a, d) = (a, surroundings events d)) ∧
    ∀ q, ¬ p <+: q → (history events (a, d)).2.node? q = d.node? q := by
  intro p a
  refine ⟨?_, fun h => history_of_not_isOwn events h a d,
    (within_history events hd rfl rfl hevents).outside⟩
  rintro before own after rfl hown hbefore
  intro found left
  have hfound : Within p d found := by
    have := within_history (a := a) before hd rfl rfl (List.forall_mem_append.1 hevents).1
    rwa [history_of_not_isOwn before hbefore] at this
  have hfolder : found.current.follow (components folder) = p := by rw [hfound.current]
  refine ⟨history_of_first hown hbefore after rfl rfl d, fun hdir hp q hq => ?_, ?_⟩
  · exact node?_removePath (hfound.grounded hd) hfolder hp hdir hq
  · exact (within_removePath (hfound.grounded hd) (hfolder ▸ List.prefix_refl p)).outside

/-- What others make at the place of the directory stays when it was disposed of before. -/
theorem remade_directory_stays :
    let p : Place := ["tmp", "a"]
    let d : Disk :=
      { entries := [(["tmp"], .dir), (p, .dir), (p ++ ["x"], .file .data []),
          (p ++ ["b"], .dir), (p ++ ["b", "y"], .file .data []), (["tmp", "z"], .file .data [])] }
    let a : Artifacts := ⟨none, some "/tmp/a", false⟩
    let write : Event := .outside fun f => (f.write "/tmp/a/b/w" []).toOption.getD f
    let remove : Event := .outside fun f => f.removePath "/tmp/a/b"
    let make : Event := .outside fun f => (f.makeDir "/tmp/a").toOption.getD f
    let events := [write, remove, .dispose, make, .dispose, .drop]
    (∀ q, p <+: q → (history [write, remove, .dispose] (a, d)).2.node? q = none) ∧
    (history events (a, d)).2.node? p = some .dir ∧
    ∀ q, ¬ p <+: q → (history events (a, d)).2.node? q = d.node? q := by
  intro p d a write remove make events
  have hd : d.Grounded := grounded_of_entries (by decide +kernel)
  have hp : d.current.follow (components "/tmp/a") = p := by decide +kernel
  have hevents : ∀ x ∈ events, x.Confined (d.current.follow (components "/tmp/a")) d.current := by
    have hwrite : write.Confined p d.current := fun f hf hcurrent => by
      refine within_getD fun e he => within_write hf ?_ he
      rw [hcurrent]
      decide +kernel
    have hremove : remove.Confined p d.current := fun f hf hcurrent => by
      refine within_removePath hf ?_
      rw [hcurrent]
      decide +kernel
    have hmake : make.Confined p d.current := fun f hf hcurrent => by
      refine within_getD fun e he => within_makeDir hf (by decide) ?_ he
      rw [hcurrent]
      decide +kernel
    rw [hp]
    intro x hx
    simp only [events, List.mem_cons, List.not_mem_nil, or_false] at hx
    rcases hx with rfl | rfl | rfl | rfl | rfl | rfl
    exacts [hwrite, hremove, trivial, hmake, trivial, trivial]
  have hearly := disposes_once hd none "/tmp/a" [write, remove, .dispose] fun x hx =>
    hevents x (List.mem_append_left [make, .dispose, .drop] hx)
  obtain ⟨hstate, hgone, -⟩ := hearly.1 [write, remove] .dispose [] rfl rfl
    (by simp [write, remove, Event.isOwn])
  rw [hp] at hgone
  have hdisk : (history [write, remove, .dispose] (a, d)).2 =
      (surroundings [write, remove] d).removePath "/tmp/a" := by
    rw [hstate, surroundings_nil]
  refine ⟨fun q hq => ?_, by decide +kernel, fun q hq => ?_⟩
  · rw [hdisk]
    exact hgone (by decide +kernel) (List.cons_ne_nil _ _) q hq
  · rw [← hp] at hq
    exact (disposes_once hd none "/tmp/a" events hevents).2.2 q hq

end Artifacts
end Sigil
