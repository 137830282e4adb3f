import Mathlib.Data.List.Lex
import Sigil.Library.Resolver
import Sigil.Proofs.Compiler.Scratch
import Sigil.Proofs.Library.Registry
import Sigil.Proofs.Text.ByteOrder
import Sigil.Proofs.Text.Literal

/-!
# The newest module of a name

Of the modules that a process knows, the eligible ones can stand for their libraries, and of those
with one name the first of the newest version does (`Newest`). One step of `latest` keeps the newest
modules of those seen so far (`Latest.putLatest`), so in the end its entries are exactly the newest
modules (`mem_latest`). Further references are appended unless they are there. The main statement is
`newest_of_each_name`.
-/

namespace Sigil.Library

open Text

/-! ## Versions -/

theorem Version.compareParts_eq_lt_iff :
    ∀ {a b : List Nat}, compareParts a b = .lt ↔ a < b
  | [], [] => by simp [compareParts]
  | [], _ :: _ => by simp [compareParts]
  | _ :: _, [] => by simp [compareParts]
  | a :: as, b :: bs => by
    rw [compareParts, List.cons_lt_cons_iff, Ordering.then_eq_lt, Nat.compare_eq_lt,
      Nat.compare_eq_eq, compareParts_eq_lt_iff]

/-! ## Newest modules -/

/-- A module that can stand for the library of another one. -/
def Rival (m k : Module) : Prop := isEligible k = true ∧ k.name = m.name

/-- The first of the eligible modules with its name that has the greatest version. -/
def Newest (ms : List Module) (m : Module) : Prop :=
  isEligible m = true ∧ ∃ before after, ms = before ++ m :: after ∧
    (∀ k ∈ before, Rival m k → k.version.parts < m.version.parts) ∧
    ∀ k ∈ after, Rival m k → k.version.parts ≤ m.version.parts

section

variable {ms : List Module} {m k : Module}

theorem Newest.mem (h : Newest ms m) : m ∈ ms := by
  obtain ⟨-, before, after, rfl, -, -⟩ := h
  exact List.mem_append_right before List.mem_cons_self

theorem Newest.snoc (h : Newest ms m) (hk : Rival m k → k.version.parts ≤ m.version.parts) :
    Newest (ms ++ [k]) m := by
  obtain ⟨heligible, before, after, rfl, hbefore, hafter⟩ := h
  refine ⟨heligible, before, after ++ [k], by simp, hbefore, ?_⟩
  rw [List.forall_mem_append]
  exact ⟨hafter, List.forall_mem_singleton.2 hk⟩

theorem newest_last (heligible : isEligible k = true)
    (h : ∀ j ∈ ms, Rival k j → j.version.parts < k.version.parts) : Newest (ms ++ [k]) k :=
  ⟨heligible, ms, [], rfl, h, nofun⟩

theorem Newest.le (h : Newest ms m) (hk : k ∈ ms) (hrival : Rival m k) :
    k.version.parts ≤ m.version.parts := by
  obtain ⟨-, before, after, rfl, hbefore, hafter⟩ := h
  rw [List.mem_append, List.mem_cons] at hk
  rcases hk with hk | rfl | hk
  · exact le_of_lt (hbefore k hk hrival)
  · exact le_rfl
  · exact hafter k hk hrival

theorem Newest.unique (hm : Newest ms m) (hk : Newest ms k) (hname : m.name = k.name) : m = k := by
  have hmk : Rival m k := ⟨hk.1, hname.symm⟩
  have hkm : Rival k m := ⟨hm.1, hname⟩
  have hle := hm.le hk.mem hmk
  have hge := hk.le hm.mem hkm
  obtain ⟨-, before, after, rfl, hbefore, -⟩ := hm
  obtain ⟨-, before', after', heq, hbefore', -⟩ := hk
  -- The one that stands further back has the other one in front of it, which is older then.
  rcases List.append_eq_append_iff.1 heq with ⟨r, rfl, hr⟩ | ⟨r, rfl, hr⟩
  · cases r with
    | nil => exact (List.cons.inj hr).1
    | cons x r =>
      obtain ⟨rfl, -⟩ := List.cons.inj hr
      exact absurd (hbefore' m (by simp) hkm) (not_lt_of_ge hle)
  · cases r with
    | nil => exact (List.cons.inj hr).1.symm
    | cons x r =>
      obtain ⟨rfl, -⟩ := List.cons.inj hr
      exact absurd (hbefore k (by simp) hmk) (not_lt_of_ge hge)

end

/-! ## One entry for each name -/

/-- Entries for the newest modules: each is under its name, and every name of an eligible module is
there. -/
structure Latest (ms : List Module) (es : List (String × Module)) : Prop where
  ascending : Keyed.Ascending es
  newest : ∀ {n m}, Keyed.get? n es = some m → m.name = n ∧ Newest ms m
  complete : ∀ k ∈ ms, isEligible k = true → ∃ m, Keyed.get? k.name es = some m

section

variable {ms : List Module} {es : List (String × Module)} {k : Module}

theorem Latest.skip (h : Latest ms es) (hk : isEligible k = false) : Latest (ms ++ [k]) es := by
  refine ⟨h.ascending, fun hget => ?_, ?_⟩
  · obtain ⟨hname, hnewest⟩ := h.newest hget
    exact ⟨hname, hnewest.snoc fun hrival => absurd (hk.symm.trans hrival.1) nofun⟩
  · rw [List.forall_mem_append]
    exact ⟨h.complete, List.forall_mem_singleton.2 fun heligible =>
      absurd (hk.symm.trans heligible) nofun⟩

/-- What `putLatest` does: a module that is newer than the one under its name takes its place. -/
theorem putLatest_cases (es : List (String × Module)) (k : Module) :
    (∃ m, Keyed.get? k.name es = some m ∧ k.version.parts ≤ m.version.parts ∧
      putLatest es k = es) ∨
    ((∀ m, Keyed.get? k.name es = some m → m.version.parts < k.version.parts) ∧
      putLatest es k = Keyed.put k.name k es) := by
  unfold putLatest
  cases hget : Keyed.get? k.name es with
  | none => exact .inr ⟨nofun, rfl⟩
  | some m =>
    have hlt : m.version.compare k.version = .lt ↔ m.version.parts < k.version.parts :=
      Version.compareParts_eq_lt_iff
    by_cases h : m.version.parts < k.version.parts
    · refine .inr ⟨?_, if_pos (hlt.2 h)⟩
      rintro _ ⟨⟩
      exact h
    · exact .inl ⟨m, rfl, not_lt.1 h, if_neg (mt hlt.1 h)⟩

theorem Latest.putLatest (h : Latest ms es) (hk : isEligible k = true) :
    Latest (ms ++ [k]) (putLatest es k) := by
  rcases putLatest_cases es k with ⟨m, hget, hle, heq⟩ | ⟨hlt, heq⟩
  · rw [heq]
    refine ⟨h.ascending, fun hn => ?_, ?_⟩
    · obtain ⟨hname, hnewest⟩ := h.newest hn
      refine ⟨hname, hnewest.snoc fun hrival => ?_⟩
      rw [hrival.2, hname, hn] at hget
      exact Option.some.inj hget ▸ hle
    · rw [List.forall_mem_append]
      exact ⟨h.complete, List.forall_mem_singleton.2 fun _ => ⟨m, hget⟩⟩
  · rw [heq]
    refine ⟨Keyed.ascending_put h.ascending, fun {n m} hn => ?_, ?_⟩
    · by_cases hname : n = k.name
      · rw [hname, Keyed.get?_put_self, Option.some.injEq] at hn
        subst hn
        refine ⟨hname.symm, newest_last hk fun j hj hrival => ?_⟩
        -- The rivals so far are at most as new as the entry under the name.
        obtain ⟨m, hget⟩ := h.complete j hj hrival.1
        obtain ⟨hm, hnewest⟩ := h.newest hget
        rw [hrival.2] at hget
        exact lt_of_le_of_lt (hnewest.le hj ⟨hrival.1, hm.symm⟩) (hlt m hget)
      · rw [Keyed.get?_put_of_ne hname] at hn
        obtain ⟨hm, hnewest⟩ := h.newest hn
        exact ⟨hm, hnewest.snoc fun hrival => absurd (hm.symm.trans hrival.2.symm) hname⟩
    · have hkept : ∀ n m, Keyed.get? n es = some m →
          ∃ m, Keyed.get? n (Keyed.put k.name k es) = some m := by
        intro n m hn
        by_cases hname : n = k.name
        · exact ⟨k, by rw [hname, Keyed.get?_put_self]⟩
        · exact ⟨m, by rw [Keyed.get?_put_of_ne hname, hn]⟩
      rw [List.forall_mem_append]
      refine ⟨fun j hj heligible => ?_, List.forall_mem_singleton.2 fun _ =>
        ⟨k, Keyed.get?_put_self k.name k es⟩⟩
      obtain ⟨m, hget⟩ := h.complete j hj heligible
      exact hkept j.name m hget

end

/-- The entries are those of the newest modules. -/
theorem latest_latest (ms : List Module) : Latest ms (latest ms) := by
  induction ms using List.reverseRecOn with
  | nil => exact ⟨List.Pairwise.nil, nofun, nofun⟩
  | append_singleton ms k ih =>
    unfold latest at ih ⊢
    rw [List.filter_append, List.foldl_append]
    cases hk : isEligible k with
    | false => simpa [hk] using ih.skip hk
    | true => simpa [hk] using ih.putLatest hk

theorem mem_latest {ms : List Module} {n : String} {m : Module} :
    (n, m) ∈ latest ms ↔ m.name = n ∧ Newest ms m := by
  have h := latest_latest ms
  rw [← Keyed.get?_eq_some_iff h.ascending]
  refine ⟨h.newest, ?_⟩
  rintro ⟨rfl, hm⟩
  obtain ⟨k, hget⟩ := h.complete m hm.mem hm.1
  obtain ⟨hname, hk⟩ := h.newest hget
  rw [hget, hm.unique hk hname.symm]

/-! ## The order of the modules -/

/-- No two eligible modules share both name and version. -/
def Distinct (ms : List Module) : Prop :=
  (ms.filter isEligible).Pairwise fun a b => ¬ (a.name = b.name ∧ a.version = b.version)

theorem Newest.perm {ms ms' : List Module} {m : Module} (h : Newest ms m) (hperm : ms.Perm ms')
    (hdistinct : Distinct ms') : Newest ms' m := by
  obtain ⟨before, after, rfl⟩ := List.append_of_mem (hperm.subset h.mem)
  have hle : ∀ k ∈ before ++ m :: after, Rival m k → k.version.parts ≤ m.version.parts :=
    fun k hk hrival => h.le (hperm.symm.subset hk) hrival
  rw [Distinct, List.filter_append, List.pairwise_append] at hdistinct
  refine ⟨h.1, before, after, rfl, fun k hk hrival => ?_, fun k hk hrival => ?_⟩
  · refine lt_of_le_of_ne (hle k (List.mem_append_left _ hk) hrival) fun hversion => ?_
    refine hdistinct.2.2 k (List.mem_filter.2 ⟨hk, hrival.1⟩) m
      (List.mem_filter.2 ⟨List.mem_cons_self, h.1⟩) ⟨hrival.2, ?_⟩
    cases hk : k.version
    cases hm : m.version
    rw [hk, hm] at hversion
    exact congrArg Version.mk hversion
  · exact hle k (List.mem_append_right _ (List.mem_cons_of_mem _ hk)) hrival

theorem Distinct.perm {ms ms' : List Module} (h : Distinct ms) (hperm : ms.Perm ms') :
    Distinct ms' := by
  refine (hperm.filter isEligible).pairwise h fun hab hba => hab ⟨hba.1.symm, hba.2.symm⟩

theorem latest_perm {ms ms' : List Module} (hperm : ms.Perm ms') (hdistinct : Distinct ms) :
    latest ms = latest ms' := by
  refine Keyed.eq_of_mem_iff (latest_latest ms).ascending (latest_latest ms').ascending ?_
  rintro ⟨n, m⟩
  rw [mem_latest, mem_latest]
  exact and_congr_right fun _ =>
    ⟨fun h => h.perm hperm (hdistinct.perm hperm), fun h => h.perm hperm.symm hdistinct⟩

/-! ## Further references -/

namespace Reference

/-- The last one of further references is appended unless it is there. -/
theorem appendNew_append_singleton (rs more : List Reference) (r : Reference) :
    appendNew rs (more ++ [r]) =
      appendNew rs more ++ if r.isIn (appendNew rs more) then [] else [r] := by
  induction more generalizing rs with
  | nil =>
    rw [List.nil_append, appendNew, appendNew, appendNew]
    split
    · exact (List.append_nil rs).symm
    · rfl
  | cons s more ih =>
    rw [List.cons_append, appendNew, appendNew]
    exact ih _

/-- Every further reference is there in the end, or one that is the same. -/
theorem exists_same_of_mem (rs : List Reference) {more : List Reference} {r : Reference}
    (hr : r ∈ more) : ∃ e ∈ appendNew rs more, e.same r = true := by
  induction more using List.reverseRecOn with
  | nil => cases hr
  | append_singleton more s ih =>
    rw [appendNew_append_singleton]
    rw [List.mem_append, List.mem_singleton] at hr
    rcases hr with hr | rfl
    · obtain ⟨e, he, hsame⟩ := ih hr
      exact ⟨e, List.mem_append_left _ he, hsame⟩
    · split
      · rename_i h
        rw [List.append_nil]
        exact isIn_iff.1 h
      · exact ⟨r, by simp, r.same_self⟩

end Reference

/-! ## Scratch directories -/

theorem isScratchName_scratchName {id : Nat} (h : id < 16 ^ 32) :
    isScratchName (scratchName id).toList = true := by
  have htext : (scratchName id).toList = scratchStart.toList ++
      (List.replicate (32 - (Nat.toDigits 16 id).length) '0' ++ Nat.toDigits 16 id) := by
    rw [scratchName, String.toList_append, String.toList_ofList]
  have hlength : (Nat.toDigits 16 id).length ≤ 32 :=
    (Nat.length_toDigits_le_iff (by decide) (by decide)).2 h
  rw [isScratchName, after?_eq_some_iff.2 htext]
  simp only [Bool.and_eq_true, beq_iff_eq, List.all_eq_true]
  constructor
  · rw [List.length_append, List.length_replicate]
    omega
  · intro c hc
    rw [List.mem_append] at hc
    rcases hc with hc | hc
    · rw [List.eq_of_mem_replicate hc]
      decide
    · obtain ⟨v, hv⟩ := hexValue?_of_mem_toDigits hc
      rw [hv]
      rfl

/-- What lies in a scratch directory is a library of templates. -/
theorem isTemplateLibrary_of_scratch {d d' : Disk} {root folder path : String} {ids : Nat → Nat}
    (hids : ∀ j, ids j < 16 ^ 32)
    (hmade : d.createNamed root (fun j => scratchName (ids j)) = (d', .ok folder))
    (hpath : Path.components folder <+: Path.components path) : isTemplateLibrary path = true := by
  obtain ⟨j, rfl⟩ : ∃ j, folder = Path.append root (scratchName (ids j)) := by
    unfold Disk.createNamed at hmade
    split at hmade
    · cases hmade
    · split at hmade
      · rename_i hcreate
        cases hmade
        obtain ⟨j, hfolder, -⟩ := Disk.createFrom_eq_ok hcreate
        exact ⟨j, hfolder⟩
      · cases hmade
  have hmem : .name (scratchName (ids j)).toList ∈ Path.components path := by
    refine hpath.subset ?_
    rw [Path.components_append_name (isName_scratchName (ids j))]
    simp
  rw [isTemplateLibrary, Bool.or_eq_true, List.any_eq_true]
  exact .inr ⟨_, hmem, isScratchName_scratchName (hids j)⟩

/-! ## The result -/

theorem isEligible_iff {m : Module} : isEligible m = true ↔
    ∃ path, m.location = some path ∧ m.isTemporary = false ∧ isTemplateLibrary path = false := by
  unfold isEligible
  cases m.location <;> simp

/-- The references to the newest modules, one for each in their order. -/
theorem forall₂_latestReferences (ms : List Module) :
    List.Forall₂ (fun m r => ∃ path, m.location = some path ∧ r = .file path)
      ((latest ms).map (·.2)) (latestReferences ms []) := by
  have hfiles : latestReferences ms [] =
      ((latest ms).map (·.2)).filterMap fun m => m.location.map .file := by
    rw [List.filterMap_map]
    rfl
  have hlocated : ∀ m ∈ (latest ms).map (·.2), ∃ path, m.location = some path := by
    rw [List.forall_mem_map]
    intro e he
    obtain ⟨path, hpath, -⟩ := isEligible_iff.1 (mem_latest.1 he).2.1
    exact ⟨path, hpath⟩
  rw [hfiles]
  generalize (latest ms).map (·.2) = chosen at hlocated
  induction chosen with
  | nil => exact .nil
  | cons m chosen ih =>
    rw [List.forall_mem_cons] at hlocated
    obtain ⟨path, hpath⟩ := hlocated.1
    rw [List.filterMap_cons, hpath]
    exact .cons ⟨path, hpath, rfl⟩ (ih hlocated.2)

/-- For each name of an eligible module there is one file, in the order of the names' bytes: where
the first eligible module with the greatest version of that name is. Further references follow, each
unless an earlier one is the same. So every further reference is there or one that is the same, the
order of the modules does not matter if no two eligible ones share both name and version, and
nothing in a scratch directory stands for a module. -/
theorem newest_of_each_name (ms : List Module) :
    (∃ chosen : List Module,
      chosen.Pairwise (fun a b => Utf8.encode a.name < Utf8.encode b.name) ∧
      (∀ m ∈ chosen, Newest ms m) ∧
      (∀ k ∈ ms, isEligible k = true → ∃ m ∈ chosen, m.name = k.name) ∧
      List.Forall₂ (fun m r => ∃ path, m.location = some path ∧ r = .file path) chosen
        (latestReferences ms [])) ∧
    (∀ more r, latestReferences ms (more ++ [r]) = latestReferences ms more ++
      if ∃ e ∈ latestReferences ms more, e.same r = true then [] else [r]) ∧
    (∀ more, ∀ r ∈ more, ∃ e ∈ latestReferences ms more, e.same r = true) ∧
    (∀ ms' more, ms.Perm ms' → Distinct ms →
      latestReferences ms' more = latestReferences ms more) ∧
    ∀ (d d' : Disk) (root folder : String) (ids : Nat → Nat), (∀ j, ids j < 16 ^ 32) →
      d.createNamed root (fun j => scratchName (ids j)) = (d', .ok folder) →
      ∀ path, Path.components folder <+: Path.components path →
        .file path ∉ latestReferences ms [] := by
  refine ⟨⟨(latest ms).map (·.2), ?_, ?_, ?_, forall₂_latestReferences ms⟩, fun more r => ?_,
    fun more r hr => Reference.exists_same_of_mem _ hr, fun ms' more hperm hdistinct => ?_,
    fun d d' root folder ids hids hmade path hpath hmem => ?_⟩
  · have hnames := (latest_latest ms).ascending
    rw [List.pairwise_map]
    refine List.Pairwise.imp_of_mem ?_ hnames
    rintro ⟨n, a⟩ ⟨n', b⟩ ha hb hlt
    rw [(mem_latest.1 ha).1, (mem_latest.1 hb).1]
    exact Utf8.encode_lt hlt
  · rw [List.forall_mem_map]
    exact fun e he => (mem_latest.1 he).2
  · intro k hk heligible
    obtain ⟨m, hget⟩ := (latest_latest ms).complete k hk heligible
    have hm := (Keyed.get?_eq_some_iff (latest_latest ms).ascending).1 hget
    exact ⟨m, List.mem_map_of_mem hm, (mem_latest.1 hm).1⟩
  · simp only [← Reference.isIn_iff]
    exact Reference.appendNew_append_singleton _ more r
  · rw [latestReferences, latestReferences, latest_perm hperm hdistinct]
  · obtain ⟨m, hm, hlocation⟩ : ∃ m, Newest ms m ∧ m.location = some path := by
      simp only [latestReferences, Reference.appendNew, List.mem_filterMap] at hmem
      obtain ⟨⟨n, m⟩, he, hfile⟩ := hmem
      obtain ⟨l, hl, hfile⟩ := Option.map_eq_some_iff.1 hfile
      exact ⟨m, (mem_latest.1 he).2, Reference.file.inj hfile ▸ hl⟩
    obtain ⟨l, hl, -, hno⟩ := isEligible_iff.1 hm.1
    rw [hlocation, Option.some.injEq] at hl
    rw [← hl, isTemplateLibrary_of_scratch hids hmade hpath] at hno
    cases hno

end Sigil.Library
