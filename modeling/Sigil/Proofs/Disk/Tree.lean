import Mathlib.Data.List.Induction
import Sigil.Proofs.Disk.Path

/-!
# Changes of disks

Every node of a grounded disk stands in a directory. A walk comes to the place that its components
lead to (`walk_eq_ok_iff`); directories that are made on the way to a path stand on that way
(`adds_makeDirs`), a file that is written stands at the path's place (`write_eq_ok`), and a
directory that is taken away is gone with all that is in it (`node?_removeDir`). All of these keep a
disk grounded.
-/

namespace Sigil

open Sigil.Path

def Place.step (p : Place) : Component → Place
  | .root => []
  | .here => p
  | .up => p.dropLast
  | .name s => p ++ [String.ofList s]

def Place.follow (p : Place) (cs : List Component) : Place := cs.foldl Place.step p

namespace Disk

variable {d e : Disk} {p q : Place}

/-! ## Nodes -/

@[simp] theorem node?_root (d : Disk) : d.node? [] = some .dir := if_pos rfl

theorem lookup_filter (keep : Place → Bool) (es : List (Place × FileNode)) (q : Place) :
    (es.filter (keep ·.1)).lookup q = if keep q then es.lookup q else none := by
  induction es with
  | nil => simp
  | cons x es ih =>
    obtain ⟨k, n⟩ := x
    by_cases hq : q = k
    · subst hq
      by_cases hkeep : keep q = true
      · simp [hkeep]
      · simp [hkeep, ih]
    · have hne : (q == k) = false := by simpa using hq
      by_cases hkeep : keep k = true
      · simp [hkeep, List.lookup_cons, hne, ih]
      · simp [hkeep, List.lookup_cons, hne, ih]

theorem node?_filter (keep : Place → Bool) (d : Disk) (q : Place) :
    ({ d with entries := d.entries.filter (keep ·.1) } : Disk).node? q =
      if q = [] ∨ keep q = true then d.node? q else none := by
  unfold node?
  by_cases hq : q = []
  · simp [hq]
  · simp only [hq, if_false, false_or]
    exact lookup_filter keep d.entries q

theorem node?_put (hp : p ≠ []) (n : FileNode) (q : Place) :
    (d.put p n).node? q = if q = p then some n else d.node? q := by
  have hfilter := lookup_filter (fun x => decide (x ≠ p)) d.entries q
  unfold node? put
  by_cases hq : q = []
  · have hne : q ≠ p := fun h => hp (h ▸ hq)
    rw [if_pos hq, if_neg hne, if_pos hq]
  · rw [if_neg hq, if_neg hq, List.lookup_append, hfilter]
    by_cases hqp : q = p
    · simp [hqp]
    · have hbeq : (q == p) = false := by simpa using hqp
      simp [hqp, List.lookup_cons, hbeq]

theorem isWithin_iff {p q : Place} : isWithin p q = true ↔ q <+: p := List.isPrefixOf_iff_prefix

theorem node?_eraseTree (hp : p ≠ []) (q : Place) :
    (d.eraseTree p).node? q = if p <+: q then none else d.node? q := by
  rw [eraseTree, node?_filter (fun x => !isWithin x p)]
  by_cases hq : p <+: q
  · have hne : q ≠ [] := by
      rintro rfl
      exact hp (List.prefix_nil.1 hq)
    simp [hq, hne, isWithin_iff.2 hq]
  · have hfalse : isWithin q p = false := Bool.eq_false_iff.2 fun h => hq (isWithin_iff.1 h)
    simp [hq, hfalse]

theorem node?_eraseTree_root (d : Disk) :
    (d.eraseTree []).node? q = if q = [] then some .dir else none := by
  rw [eraseTree, node?_filter (fun x => !isWithin x [])]
  by_cases hq : q = []
  · simp [hq]
  · simp [hq, isWithin]

/-! ## Grounded disks -/

/-- Every node stands in a directory. -/
def Grounded (d : Disk) : Prop := ∀ p n, d.node? p = some n → d.node? p.dropLast = some .dir

theorem grounded_of_entries (h : ∀ x ∈ d.entries, d.node? x.1.dropLast = some .dir) :
    d.Grounded := by
  intro p n hp
  by_cases hnil : p = []
  · simp [hnil]
  · rw [node?, if_neg hnil, List.lookup_eq_some_iff] at hp
    obtain ⟨l, r, hentries, -⟩ := hp
    exact h (p, n) (by simp [hentries])

theorem Grounded.above (hd : d.Grounded) {n : FileNode} (h : d.node? p = some n) (hq : q <+: p)
    (hne : q ≠ p) : d.node? q = some .dir := by
  obtain ⟨r, rfl⟩ := hq
  induction r using List.reverseRecOn generalizing n with
  | nil => exact absurd (List.append_nil q).symm hne
  | append_singleton r x ih =>
    have hparent := hd _ n h
    rw [← List.append_assoc, List.dropLast_concat] at hparent
    by_cases hr : r = []
    · rwa [hr, List.append_nil] at hparent
    · exact ih hparent (by simpa using hr)

theorem grounded_put (hd : d.Grounded) (hp : p ≠ []) {n : FileNode}
    (hparent : d.node? p.dropLast = some .dir) (hdir : d.node? p = some .dir → n = .dir) :
    (d.put p n).Grounded := by
  intro q m hq
  rw [node?_put hp] at hq ⊢
  have hne : p.dropLast ≠ p := fun h => by
    have := congrArg List.length h
    have := List.length_pos_iff.2 hp
    simp only [List.length_dropLast] at *
    omega
  by_cases hqp : q = p
  · rw [hqp, if_neg hne, hparent]
  · rw [if_neg hqp] at hq
    have hup := hd q m hq
    split
    · rename_i h
      rw [hdir (h ▸ hup)]
    · exact hup

theorem grounded_eraseTree (hd : d.Grounded) (p : Place) : (d.eraseTree p).Grounded := by
  intro q n hq
  by_cases hp : p = []
  · subst hp
    rw [node?_eraseTree_root] at hq ⊢
    split at hq
    · rename_i h
      simp [h]
    · cases hq
  · rw [node?_eraseTree hp] at hq ⊢
    split at hq
    · cases hq
    · rename_i hout
      rw [if_neg fun h => hout (h.trans (List.dropLast_prefix q))]
      exact hd q n hq

/-! ## Walks -/

theorem walk_cons (d : Disk) (p : Place) (c : Component) (cs : List Component) :
    d.walk p (c :: cs) =
      match d.node? p with
      | none => .error .notFound
      | some (.file ..) => .error .notADirectory
      | some .dir => d.walk (p.step c) cs := by
  rw [walk.eq_def]
  simp only
  cases d.node? p with
  | none => rfl
  | some n =>
    cases n with
    | dir => cases c <;> rfl
    | file => rfl

/-- A walk comes to the place that the components lead to if there are directories all the way. -/
theorem walk_eq_ok_iff {cs : List Component} :
    d.walk p cs = .ok q ↔
      q = p.follow cs ∧ ∀ a b, cs = a ++ b → b ≠ [] → d.node? (p.follow a) = some .dir := by
  induction cs generalizing p with
  | nil =>
    rw [walk]
    constructor
    · intro h
      cases h
      refine ⟨rfl, fun a b h hb => ?_⟩
      exact absurd (List.append_eq_nil_iff.1 h.symm).2 hb
    · rintro ⟨rfl, -⟩
      rfl
  | cons c cs ih =>
    rw [walk_cons]
    constructor
    · intro h
      split at h
      · cases h
      · cases h
      · rename_i hdir
        obtain ⟨rfl, hall⟩ := ih.1 h
        refine ⟨rfl, fun a b hab hb => ?_⟩
        cases a with
        | nil => exact hdir
        | cons a as =>
          rw [List.cons_append, List.cons.injEq] at hab
          rw [← hab.1]
          exact hall as b hab.2 hb
    · rintro ⟨rfl, hall⟩
      have hdir : d.node? p = some .dir := hall [] (c :: cs) rfl (List.cons_ne_nil c cs)
      rw [hdir]
      exact ih.2 ⟨rfl, fun a b hab hb => hall (c :: a) b (by rw [hab]; rfl) hb⟩

theorem walk_mono {cs : List Component} (h : d.walk p cs = .ok q)
    (hdir : ∀ r, d.node? r = some .dir → e.node? r = some .dir) : e.walk p cs = .ok q := by
  obtain ⟨hq, hall⟩ := walk_eq_ok_iff.1 h
  exact walk_eq_ok_iff.2 ⟨hq, fun a b hab hb => hdir _ (hall a b hab hb)⟩

theorem walk_append_eq_ok {a b : List Component} (h : d.walk p (a ++ b) = .ok q) (hb : b ≠ []) :
    d.walk p a = .ok (p.follow a) ∧ d.node? (p.follow a) = some .dir := by
  obtain ⟨-, hall⟩ := walk_eq_ok_iff.1 h
  refine ⟨walk_eq_ok_iff.2 ⟨rfl, fun x y hxy hy => ?_⟩, hall a b rfl hb⟩
  exact hall x (y ++ b) (by rw [hxy, List.append_assoc]) (by simp [hy])

/-- Where something can be made, there is a directory for it. -/
theorem parent_of_walk {cs : List Component} (hd : d.Grounded) (h : d.walk p cs = .ok q)
    (hcs : cs ≠ []) (hq : d.node? q = none) : q ≠ [] ∧ d.node? q.dropLast = some .dir := by
  have hne : q ≠ [] := by
    rintro rfl
    simp at hq
  refine ⟨hne, ?_⟩
  obtain ⟨as, c, rfl⟩ := List.eq_nil_or_concat cs |>.resolve_left hcs
  rw [List.concat_eq_append] at h
  obtain ⟨hplace, hall⟩ := walk_eq_ok_iff.1 h
  have hdir := hall as [c] rfl (List.cons_ne_nil c [])
  rw [Place.follow, List.foldl_append, ← Place.follow] at hplace
  cases c with
  | root => exact absurd hplace hne
  | here =>
    rw [hplace] at hq
    exact absurd (hdir.symm.trans hq) (by simp)
  | up =>
    rw [hplace] at hq
    exact absurd ((hd _ _ hdir).symm.trans hq) (by simp)
  | name s =>
    have hlast : q = p.follow as ++ [String.ofList s] := hplace
    rwa [hlast, List.dropLast_concat]

/-- Components that lead on from a place without a step up lead below it. -/
theorem prefix_follow {cs : List Component} (h : ∀ c ∈ cs, c ≠ .root ∧ c ≠ .up) (p : Place) :
    p <+: p.follow cs := by
  induction cs generalizing p with
  | nil => exact List.prefix_refl p
  | cons c cs ih =>
    rw [List.forall_mem_cons] at h
    refine List.IsPrefix.trans ?_ (ih h.2 (p.step c))
    cases c with
    | root => exact absurd rfl h.1.1
    | here => exact List.prefix_refl p
    | up => exact absurd rfl h.1.2
    | name s => exact List.prefix_append p _

theorem follow_append (q : Place) (a b : List Component) :
    q.follow (a ++ b) = (q.follow a).follow b := List.foldl_append

/-- A path behind the one of a directory leads into it, if it leads down. -/
theorem prefix_place {folder name : String} (hname : Down name)
    (hq : d.place (append folder name) = .ok q) :
    d.current.follow (components folder) <+: q := by
  obtain ⟨cs, hcs, hdown⟩ := hname.components_append folder
  rw [(walk_eq_ok_iff.1 hq).1, hcs, follow_append]
  exact prefix_follow hdown _

/-! ## Making directories and files -/

/-- Directories have been made at places in `new` where nothing was. -/
structure Adds (new : Place → Prop) (d e : Disk) : Prop where
  current : e.current = d.current
  grounded : d.Grounded → e.Grounded
  node : ∀ q, e.node? q = d.node? q ∨ d.node? q = none ∧ e.node? q = some .dir ∧ new q

/-- What was a directory still is one. -/
structure Grows (d e : Disk) : Prop where
  current : e.current = d.current
  grounded : d.Grounded → e.Grounded
  dir : ∀ q, d.node? q = some .dir → e.node? q = some .dir

/-- Nodes have been taken away. -/
structure Shrinks (d e : Disk) : Prop where
  current : e.current = d.current
  grounded : d.Grounded → e.Grounded
  node : ∀ q, e.node? q = d.node? q ∨ e.node? q = none

theorem Grows.refl (d : Disk) : Grows d d := ⟨rfl, id, fun _ => id⟩

theorem Grows.trans {d e f : Disk} (h : Grows d e) (k : Grows e f) : Grows d f :=
  ⟨k.current.trans h.current, k.grounded ∘ h.grounded, fun q hq => k.dir q (h.dir q hq)⟩

theorem Shrinks.refl (d : Disk) : Shrinks d d := ⟨rfl, id, fun _ => .inl rfl⟩

theorem Shrinks.trans {d e f : Disk} (h : Shrinks d e) (k : Shrinks e f) : Shrinks d f := by
  refine ⟨k.current.trans h.current, k.grounded ∘ h.grounded, fun q => ?_⟩
  rcases k.node q with hk | hk
  · rw [hk]
    exact h.node q
  · exact .inr hk

theorem Shrinks.eraseTree (d : Disk) (p : Place) : Shrinks d (d.eraseTree p) := by
  refine ⟨rfl, fun hd => grounded_eraseTree hd p, fun q => ?_⟩
  by_cases hp : p = []
  · subst hp
    rw [node?_eraseTree_root]
    split
    · rename_i hq
      subst hq
      exact .inl (node?_root d).symm
    · exact .inr rfl
  · rw [node?_eraseTree hp]
    split
    · exact .inr rfl
    · exact .inl rfl

theorem Adds.refl (new : Place → Prop) (d : Disk) : Adds new d d := ⟨rfl, id, fun _ => .inl rfl⟩

theorem Adds.trans {new : Place → Prop} {d e f : Disk} (h : Adds new d e) (k : Adds new e f) :
    Adds new d f := by
  refine ⟨k.current.trans h.current, k.grounded ∘ h.grounded, fun q => ?_⟩
  rcases k.node q with hk | ⟨hnone, hdir, hnew⟩
  · rw [hk]
    exact h.node q
  · rcases h.node q with hh | ⟨-, hsome, -⟩
    · exact .inr ⟨hh ▸ hnone, hdir, hnew⟩
    · rw [hnone] at hsome
      cases hsome

theorem Adds.mono {new old : Place → Prop} (h : Adds old d e) (hsub : ∀ q, old q → new q) :
    Adds new d e :=
  ⟨h.current, h.grounded, fun q => (h.node q).imp_right fun ⟨ha, hb, hc⟩ => ⟨ha, hb, hsub q hc⟩⟩

theorem Adds.grows {new : Place → Prop} (h : Adds new d e) : Grows d e := by
  refine ⟨h.current, h.grounded, fun q hq => ?_⟩
  rcases h.node q with hn | ⟨-, hdir, -⟩
  · rw [hn, hq]
  · exact hdir

theorem makeDirAt_eq_ok {cs : List Component} (h : d.makeDirAt cs = .ok e) :
    ∃ p, d.walk d.current cs = .ok p ∧ d.node? p = none ∧ e = d.put p .dir := by
  rw [makeDirAt] at h
  cases hw : d.walk d.current cs with
  | error f =>
    rw [hw] at h
    cases h
  | ok p =>
    rw [hw] at h
    cases hn : d.node? p with
    | none =>
      simp only [bind, Except.bind, hn] at h
      cases h
      exact ⟨p, rfl, hn, rfl⟩
    | some n =>
      simp only [bind, Except.bind, hn] at h
      cases h

/-- The places on the way along components, their end included. -/
def OnWay (from_ : Place) (cs : List Component) (q : Place) : Prop :=
  ∃ a, a ≠ [] ∧ a <+: cs ∧ q = from_.follow a

theorem adds_makeDirAt {cs : List Component} (hcs : cs ≠ []) (h : d.makeDirAt cs = .ok e)
    (hd : d.Grounded) : Adds (OnWay d.current cs) d e := by
  obtain ⟨p, hw, hn, rfl⟩ := makeDirAt_eq_ok h
  obtain ⟨hp, hparent⟩ := parent_of_walk hd hw hcs hn
  refine ⟨rfl, fun hd => grounded_put hd hp hparent fun _ => rfl, fun q => ?_⟩
  rw [node?_put hp]
  split
  · rename_i hq
    subst hq
    exact .inr ⟨hn, rfl, cs, hcs, List.prefix_refl cs, (walk_eq_ok_iff.1 hw).1⟩
  · exact .inl rfl

theorem OnWay.of_dropLast {cs : List Component} (h : OnWay p cs.dropLast q) : OnWay p cs q := by
  obtain ⟨a, ha, hpre, hq⟩ := h
  exact ⟨a, ha, hpre.trans (List.dropLast_prefix cs), hq⟩

/-- The directories that are made on the way to a path. -/
theorem adds_makeDirsAt (cs : List Component) (hd : d.Grounded) :
    Adds (OnWay d.current cs) d (d.makeDirsAt cs).1 := by
  fun_induction makeDirsAt d cs with
  | case1 => exact Adds.refl _ d
  | case2 cs hcs e h => exact adds_makeDirAt hcs h hd
  | case3 cs hcs h e f hrec ih =>
    rw [hrec] at ih
    exact ih.mono fun q hq => hq.of_dropLast
  | case4 cs hcs h e hrec f hmake ih =>
    rw [hrec] at ih
    have hup := ih.mono fun q hq => hq.of_dropLast
    have hlast := adds_makeDirAt hcs hmake (hup.grounded hd)
    rw [hup.current] at hlast
    exact hup.trans hlast
  | case5 cs hcs h e hrec f hmake ih =>
    rw [hrec] at ih
    exact ih.mono fun q hq => hq.of_dropLast
  | case6 => exact Adds.refl _ d

theorem adds_makeDirs (hd : d.Grounded) (path : String) :
    Adds (OnWay d.current (components path)) d (d.makeDirs path).1 := adds_makeDirsAt _ hd

theorem grows_put (hd : d.Grounded) (hp : p ≠ []) {n : FileNode}
    (hparent : d.node? p.dropLast = some .dir) (hdir : d.node? p ≠ some .dir) :
    Grows d (d.put p n) := by
  refine ⟨rfl, fun _ => grounded_put hd hp hparent fun h => absurd h hdir, fun q hq => ?_⟩
  rw [node?_put hp, if_neg, hq]
  rintro rfl
  exact hdir hq

theorem write_eq_ok {path : String} {bytes : List UInt8} (hd : d.Grounded)
    (h : d.write path bytes = .ok e) :
    Grows d e ∧ ∃ p k, d.place path = .ok p ∧ p ≠ [] ∧ e = d.put p (.file k bytes) := by
  by_cases hempty : path.isEmpty = true
  · rw [write, if_pos hempty] at h
    cases h
  · have hpath : path ≠ "" := by simpa using hempty
    rw [write, if_neg hempty] at h
    simp only [bind, Except.bind] at h
    cases hplace : d.place path with
    | error f =>
      rw [hplace] at h
      cases h
    | ok p =>
      rw [hplace] at h
      simp only at h
      cases hn : d.node? p with
      | none =>
        obtain ⟨hne, hparent⟩ := parent_of_walk hd hplace (components_ne_nil hpath) hn
        rw [hn] at h
        simp only at h
        split at h
        · cases h
        · cases h
          exact ⟨grows_put hd hne hparent (by simp [hn]), p, .data, rfl, hne, rfl⟩
      | some n =>
        rw [hn] at h
        cases n with
        | dir => cases h
        | file k b =>
          have hne : p ≠ [] := by
            rintro rfl
            simp at hn
          simp only at h
          split at h
          · cases h
          · cases h
            exact ⟨grows_put hd hne (hd _ _ hn) (by simp [hn]), p, k, rfl, hne, rfl⟩

/-! ## Taking directories away -/

theorem foldl_filter {α : Type} (keep : α → Place → Bool) (f : Disk → α → Disk)
    (hf : ∀ d x, f d x = { d with entries := d.entries.filter (keep x ·.1) }) (xs : List α)
    (d : Disk) :
    xs.foldl f d = { d with entries := d.entries.filter fun e => xs.all (keep · e.1) } := by
  induction xs generalizing d with
  | nil =>
    have hall : d.entries.filter (fun _ => true) = d.entries := List.filter_eq_self.2 fun _ _ => rfl
    simp only [List.foldl_nil, List.all_nil, hall]
  | cons x xs ih =>
    rw [List.foldl_cons, ih, hf]
    simp only [List.filter_filter, List.all_cons, Bool.and_comm]

theorem mem_list_of_node? {x : String} {n : FileNode} (h : d.node? (p ++ [x]) = some n) :
    (x, n) ∈ d.list p := by
  have hmem : (p ++ [x], n) ∈ d.entries := by
    rw [node?, if_neg (by simp), List.lookup_eq_some_iff] at h
    obtain ⟨l, r, hentries, -⟩ := h
    rw [hentries]
    simp
  exact List.mem_filterMap.2 ⟨_, hmem, by simp⟩

/-- Whether a place stays when the files of the directory `p` go. -/
def keptByFile (p : Place) (x : String × FileNode) (q : Place) : Bool :=
  match x.2 with
  | .dir => true
  | .file .. => q ≠ p ++ [x.1]

/-- Whether a place stays when the subdirectories of `p` go, with all that is in them. -/
def keptByDir (p : Place) (x : String × FileNode) (q : Place) : Bool :=
  match x.2 with
  | .dir => !isWithin q (p ++ [x.1])
  | .file .. => true

def keptBy (p : Place) (x : String × FileNode) (q : Place) : Bool :=
  keptByFile p x q && keptByDir p x q

theorem keptBy_of_outside {x : String × FileNode} (h : ¬ p ++ [x.1] <+: q) :
    keptBy p x q = true := by
  have hne : q ≠ p ++ [x.1] := by
    rintro rfl
    exact h (List.prefix_refl _)
  have hout : isWithin q (p ++ [x.1]) = false := Bool.eq_false_iff.2 fun hw => h (isWithin_iff.1 hw)
  unfold keptBy keptByFile keptByDir
  cases x.2 with
  | dir => simp [hout]
  | file => simp [hne]

/-- All that is in a directory goes with one of its nodes. -/
theorem exists_not_keptBy (hd : d.Grounded) {n : FileNode} (hq : d.node? q = some n)
    (hp : p <+: q) (hne : q ≠ p) : ∃ x ∈ d.list p, keptBy p x q = false := by
  obtain ⟨r, rfl⟩ := hp
  cases r with
  | nil => exact absurd (List.append_nil p) hne
  | cons x r =>
    have hpre : p ++ [x] <+: p ++ x :: r := ⟨r, by simp⟩
    by_cases hr : r = []
    · subst hr
      refine ⟨_, mem_list_of_node? hq, ?_⟩
      cases n with
      | dir => simp [keptBy, keptByDir, isWithin_iff.2 hpre]
      | file k b => simp [keptBy, keptByFile]
    · have hdir := hd.above hq hpre (by simpa using Ne.symm hr)
      refine ⟨_, mem_list_of_node? hdir, ?_⟩
      simp [keptBy, keptByDir, isWithin_iff.2 hpre]

/-- A disk without what is in the directory `p`. -/
def emptied (d : Disk) (p : Place) : Disk :=
  { d with entries := d.entries.filter fun e => (d.list p).all (keptBy p · e.1) }

theorem filter_true (d : Disk) : d = { d with entries := d.entries.filter fun _ => true } := by
  have hall : d.entries.filter (fun _ => true) = d.entries := List.filter_eq_self.2 fun _ _ => rfl
  rw [hall]

theorem removeDir_eq (h : d.node? p = some .dir) : d.removeDir p = (d.emptied p).removeEmpty p := by
  rw [removeDir, if_pos h]
  simp only
  rw [foldl_filter (keptByDir p), foldl_filter (keptByFile p)]
  · simp only [emptied, List.filter_filter]
    congr 3
    funext e
    rw [Bool.eq_iff_iff]
    simp only [Bool.and_eq_true, List.all_eq_true, keptBy]
    exact ⟨fun h x hx => ⟨h.2 x hx, h.1 x hx⟩,
      fun h => ⟨fun x hx => (h x hx).2, fun x hx => (h x hx).1⟩⟩
  · rintro d ⟨name, n⟩
    cases n with
    | dir => exact filter_true d
    | file => rfl
  · rintro d ⟨name, n⟩
    cases n with
    | dir => rfl
    | file => exact filter_true d

theorem node?_emptied (hd : d.Grounded) (q : Place) :
    (d.emptied p).node? q = if p <+: q ∧ q ≠ p ∧ q ≠ [] then none else d.node? q := by
  have hnode := node?_filter (fun q => (d.list p).all (keptBy p · q)) d q
  rw [emptied, hnode]
  by_cases hq : p <+: q ∧ q ≠ p ∧ q ≠ []
  · rw [if_pos hq]
    split
    · rename_i h
      by_contra hsome
      obtain ⟨n, hn⟩ := Option.ne_none_iff_exists'.1 hsome
      obtain ⟨x, hx, hkept⟩ := exists_not_keptBy hd hn hq.1 hq.2.1
      have := List.all_eq_true.1 (h.resolve_left hq.2.2) x hx
      rw [hkept] at this
      cases this
    · rfl
  · rw [if_neg hq, if_pos]
    by_cases hnil : q = []
    · exact .inl hnil
    · refine .inr (List.all_eq_true.2 fun x _ => keptBy_of_outside fun hpre => hq ⟨?_, ?_, hnil⟩)
      · exact (List.prefix_append p [x.1]).trans hpre
      · rintro rfl
        have hlength := hpre.length_le
        rw [List.length_append, List.length_singleton] at hlength
        omega

/-- A directory that is taken away is gone with all that is in it. -/
theorem node?_removeDir (hd : d.Grounded) (hp : p ≠ []) (h : d.node? p = some .dir) (q : Place) :
    (d.removeDir p).node? q = if p <+: q then none else d.node? q := by
  have hself : (d.emptied p).node? p = some .dir := by
    rw [node?_emptied hd, if_neg (by simp), h]
  have hlist : (d.emptied p).list p = [] := by
    rw [list, List.filterMap_eq_nil_iff]
    rintro ⟨q, n⟩ hmem
    simp only
    cases hlast : q.getLast? with
    | none => rfl
    | some name =>
      refine if_neg ?_
      rintro rfl
      have hne : q ≠ [] := by
        rintro rfl
        cases hlast
      have hq : ¬ q = q.dropLast := fun h => by
        have := congrArg List.length h
        have := List.length_pos_iff.2 hne
        simp only [List.length_dropLast] at *
        omega
      have hnone := node?_emptied (p := q.dropLast) hd q
      rw [if_pos ⟨List.dropLast_prefix q, hq, hne⟩, node?, if_neg hne, List.lookup_eq_none_iff]
        at hnone
      have := hnone _ hmem
      simp at this
  rw [removeDir_eq h, removeEmpty, if_pos ⟨hself, hlist⟩]
  have hnode := node?_filter (fun q => decide (q ≠ p)) (d.emptied p) q
  rw [hnode, node?_emptied hd]
  by_cases hnil : q = []
  · have hout : ¬ p <+: q := fun hpre => hp (List.prefix_nil.1 (hnil ▸ hpre))
    simp [hnil, hnil ▸ hout]
  · by_cases hqp : q = p
    · simp [hqp, hp]
    · simp [hnil, hqp]

end Disk
end Sigil
