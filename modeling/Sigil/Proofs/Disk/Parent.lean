import Sigil.Proofs.Disk.Path

/-!
# Paths taken apart

A path that is neither empty nor the root is its directory and a last step (`parent?_cases`). The
directory is the empty path exactly if that step is all there is (`parent?_eq_some_nil_iff`), and a
file's name behind its directory is the file again (`alike_append_parent`).
-/

namespace Sigil.Path

open Text

/-! ## Segments behind a start -/

/-- Idle segments at the end are no steps. -/
theorem exists_dropIdle (body : List (List Char)) :
    ∃ idle, steps idle = [] ∧ body = dropIdle body ++ idle := by
  refine ⟨(body.reverse.takeWhile isIdle).reverse, ?_, ?_⟩
  · rw [steps, List.map_eq_nil_iff, List.filter_eq_nil_iff]
    intro s hs
    have := List.all_eq_true.1 List.all_takeWhile s (List.mem_reverse.1 hs)
    simpa using this
  · rw [dropIdle, ← List.reverse_append, List.takeWhile_append_dropWhile, List.reverse_reverse]

theorem steps_dropIdle (body : List (List Char)) : steps (dropIdle body) = steps body := by
  obtain ⟨idle, hidle, hbody⟩ := exists_dropIdle body
  have h := congrArg steps hbody
  rw [steps_append, hidle, List.append_nil] at h
  exact h.symm

theorem dropIdle_isPrefix (body : List (List Char)) : dropIdle body <+: body := by
  obtain ⟨idle, -, hbody⟩ := exists_dropIdle body
  exact ⟨idle, hbody.symm⟩

/-- Segments that a path with a start can have: without a start the first one is neither a single
dot nor, in front of others, empty. -/
structure Standing (lead : Lead) (body : List (List Char)) : Prop where
  noSlash : ∀ s ∈ body, '/' ∉ s
  first : lead = .none → ∀ s ∈ body.head?, s ≠ ['.'] ∧ (s = [] → body = [[]])

theorem Standing.of_prefix {lead : Lead} {body front : List (List Char)} (h : Standing lead body)
    (hfront : front <+: body) : Standing lead front := by
  refine ⟨fun s hs => h.noSlash s (hfront.subset hs), fun hlead s hs => ?_⟩
  obtain ⟨r, rfl⟩ := hfront
  obtain ⟨f, rfl⟩ := List.head?_eq_some_iff.1 hs
  obtain ⟨hdot, hnil⟩ := h.first hlead s rfl
  refine ⟨hdot, fun hs => ?_⟩
  have hall := hnil hs
  rw [List.cons_append, List.cons.injEq, List.append_eq_nil_iff] at hall
  rw [hs, hall.2.1]

theorem standing_split (p : List Char) : Standing (split p).1 (split p).2 := by
  have hslash : ∀ s ∈ fields '/' p, '/' ∉ s := fun s hs => sep_notMem_of_mem_fields hs
  unfold split
  split
  · exact ⟨nofun, nofun⟩
  · rename_i s hfields
    rw [hfields] at hslash
    split
    · exact ⟨nofun, nofun⟩
    · rename_i hdot
      refine ⟨hslash, fun _ t ht => ?_⟩
      rw [List.head?_cons, Option.mem_some_iff] at ht
      subst ht
      exact ⟨hdot, fun hs => by rw [hs]⟩
  · rename_i s r _ hfields
    rw [hfields] at hslash
    split
    · exact ⟨fun t ht => hslash t (List.mem_cons_of_mem s ht), nofun⟩
    · rename_i hnil
      split
      · exact ⟨fun t ht => hslash t (List.mem_cons_of_mem s ht), nofun⟩
      · rename_i hdot
        refine ⟨hslash, fun _ t ht => ?_⟩
        rw [List.head?_cons, Option.mem_some_iff] at ht
        subst ht
        exact ⟨hdot, fun hs => absurd hs hnil⟩

theorem components_split (p : String) :
    components p = (split p.toList).1.components ++ steps (split p.toList).2 := rfl

/-- What a start and segments are written as has their components. -/
theorem Standing.components_assemble {lead : Lead} {body : List (List Char)}
    (h : Standing lead body) :
    components (String.ofList (assemble lead body)) = lead.components ++ steps body := by
  cases lead with
  | root =>
    have hfields : fields '/' (String.ofList (assemble .root body)).toList =
        [] :: fields '/' (join ['/'] body) := by
      rw [String.toList_ofList, assemble, fields, if_pos rfl]
    have hsteps : steps (fields '/' (join ['/'] body)) = steps body := by
      cases body with
      | nil => rfl
      | cons s r => rw [fields_join (List.cons_ne_nil s r) h.noSlash]
    have hmore : (fields '/' (join ['/'] body)).isEmpty = false := by simp [fields_ne_nil]
    rw [components_eq hfields, hsteps, hmore]
    rfl
  | here =>
    have hfields : fields '/' (String.ofList (assemble .here body)).toList = ['.'] :: body := by
      rw [String.toList_ofList, assemble, fields_join (List.cons_ne_nil _ _)]
      exact List.forall_mem_cons.2 ⟨by decide, h.noSlash⟩
    rw [components_eq hfields]
    rfl
  | none =>
    cases body with
    | nil => rfl
    | cons s r =>
      have hfields : fields '/' (String.ofList (assemble .none (s :: r))).toList = s :: r := by
        rw [String.toList_ofList, assemble, fields_join (List.cons_ne_nil s r) h.noSlash]
      obtain ⟨hdot, hnil⟩ := h.first rfl s rfl
      have hroot : ¬ (s = [] ∧ (!r.isEmpty) = true) := by
        rintro ⟨hs, hr⟩
        rw [(List.cons.inj (hnil hs)).2] at hr
        exact absurd hr (by decide)
      rw [components_eq hfields, Path.first, if_neg hdot, if_neg hroot, ← steps_append]
      rfl

/-! ## The directory and the last step -/

theorem Component.ofSegment_ne_root (s : List Char) : Component.ofSegment s ≠ .root := by
  unfold ofSegment
  split
  · exact nofun
  · exact nofun

/-- The empty path and the root have no directory; every other path is a directory and a step. -/
theorem parent?_cases (p : String) :
    (parent? p = none ∧ (components p = [] ∨ components p = [.root])) ∨
      ∃ dir c, parent? p = some dir ∧ components p = components dir ++ [c] ∧ c ≠ .root := by
  have hstanding := standing_split p.toList
  rw [components_split]
  unfold parent?
  generalize split p.toList = parts at hstanding
  obtain ⟨lead, body⟩ := parts
  simp only at hstanding ⊢
  rw [← steps_dropIdle body]
  split
  · rename_i hnil
    rw [List.reverse_eq_nil_iff] at hnil
    rw [hnil]
    cases lead with
    | root => exact .inl ⟨rfl, .inr rfl⟩
    | here => exact .inr ⟨"", .here, rfl, rfl, nofun⟩
    | none => exact .inl ⟨rfl, .inl rfl⟩
  · rename_i s r hcons
    have hbody : dropIdle body = r.reverse ++ [s] := by
      rw [← List.reverse_reverse (dropIdle body), hcons, List.reverse_cons]
    have hidle : isIdle s = false := by
      have := List.head?_dropWhile_not isIdle body.reverse
      rw [dropIdle, List.reverse_reverse] at hcons
      simpa [hcons] using this
    have hstep : steps [s] = [Component.ofSegment s] := by simp [steps, hidle]
    have hfront : dropIdle r.reverse <+: body :=
      (dropIdle_isPrefix _).trans
        (((List.prefix_append r.reverse [s]).trans (hbody ▸ List.prefix_rfl)).trans
          (dropIdle_isPrefix body))
    refine .inr ⟨_, Component.ofSegment s, rfl, ?_, Component.ofSegment_ne_root s⟩
    rw [(hstanding.of_prefix hfront).components_assemble, steps_dropIdle r.reverse, hbody,
      steps_append, hstep, List.append_assoc]

/-- A path of a single step, such as the name of a file. -/
def IsBare (p : String) : Prop := ∃ c, components p = [c] ∧ c ≠ .root

/-- A path lies in the empty directory exactly if it is a single step. -/
theorem parent?_eq_some_nil_iff {p : String} : parent? p = some "" ↔ IsBare p := by
  have hempty : components "" = [] := rfl
  rcases parent?_cases p with ⟨hnone, hp⟩ | ⟨dir, c, hdir, hp, hc⟩
  · refine ⟨fun h => absurd (hnone.symm.trans h) nofun, ?_⟩
    rintro ⟨c, hbare, hc⟩
    rcases hp with hp | hp
    · exact absurd (hp.symm.trans hbare) nofun
    · exact absurd (List.cons.inj (hp.symm.trans hbare)).1.symm hc
  · rw [hdir, Option.some.injEq]
    constructor
    · rintro rfl
      exact ⟨c, hp, hc⟩
    · rintro ⟨b, hbare, -⟩
      refine Classical.byContradiction fun hne => ?_
      obtain ⟨x, xs, hcons⟩ := List.exists_cons_of_ne_nil (components_ne_nil hne)
      rw [hbare, hcons] at hp
      simp at hp

/-- The names in a path are names of files or directories. -/
theorem isName_of_mem_components {p : String} {s : List Char} (h : .name s ∈ components p) :
    IsName s := by
  rw [components_split, List.mem_append] at h
  rcases h with h | h
  · cases hlead : (split p.toList).1 <;> simp [hlead, Lead.components] at h
  · rw [steps, List.mem_map] at h
    obtain ⟨t, ht, hname⟩ := h
    rw [List.mem_filter, isIdle] at ht
    unfold Component.ofSegment at hname
    split at hname
    · cases hname
    · rename_i hup
      cases hname
      exact ⟨fun hs => by simp [hs] at ht, fun hs => by simp [hs] at ht, hup,
        (standing_split p.toList).noSlash s ht.1⟩

theorem fileName?_eq_some_iff {p name : String} :
    fileName? p = some name ↔ (components p).getLast? = some (.name name.toList) := by
  unfold fileName?
  split
  · rename_i s hs
    rw [hs, Option.some.injEq, Option.some.injEq, Component.name.injEq]
    exact ⟨fun h => h ▸ String.toList_ofList.symm, fun h => h ▸ String.ofList_toList⟩
  · rename_i hother
    exact ⟨nofun, fun h => absurd h (hother _)⟩

/-- A path ends with its last segment, if that is a name. -/
theorem fileName?_of_getLast? {p : String} {s : List Char}
    (hlast : (fields '/' p.toList).getLast? = some s) (h : IsName s) :
    fileName? p = some (String.ofList s) := by
  obtain ⟨front, hfields⟩ := List.getLast?_eq_some_iff.1 hlast
  obtain ⟨cs, hcs⟩ : ∃ cs, components p = cs ++ [.name s] := by
    cases front with
    | nil =>
      refine ⟨[], ?_⟩
      rw [components_eq hfields, first, if_neg h.ne_dot, if_neg (by simp [h.ne_nil]), h.steps]
      rfl
    | cons f front =>
      refine ⟨first f true ++ steps front, ?_⟩
      have hmore : (!(front ++ [s]).isEmpty) = true := by simp
      rw [List.cons_append] at hfields
      rw [components_eq hfields, hmore, steps_append, h.steps, List.append_assoc]
  rw [fileName?_eq_some_iff, String.toList_ofList, hcs, List.getLast?_concat]

theorem fileName?_append_name {dir name : String} (h : IsName name.toList) :
    fileName? (append dir name) = some name := by
  rw [fileName?_eq_some_iff, components_append_name h, List.getLast?_concat]

theorem alike_append_parent {p dir name : String} (hdir : parent? p = some dir)
    (hname : fileName? p = some name) : alike (append dir name) p = true := by
  rcases parent?_cases p with ⟨hnone, -⟩ | ⟨_, c, hsome, hp, -⟩
  · exact absurd (hnone.symm.trans hdir) nofun
  · cases hdir.symm.trans hsome
    have hlast := fileName?_eq_some_iff.1 hname
    have hc : c = .name name.toList := by simpa [hp] using hlast
    have hstep : IsName name.toList := isName_of_mem_components (List.mem_of_getLast? hlast)
    rw [alike, beq_iff_eq, components_append_name hstep, hp, hc]

end Sigil.Path
