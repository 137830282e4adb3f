import Sigil.Disk.Scratch

/-!
# Steps of appended paths

The components of a path are a start and the steps of its segments. A path behind another one adds
the steps of its own segments (`components_append`), so a name without a slash leads one step down
(`components_append_name`).
-/

namespace Sigil.Text

theorem fields_append (sep : Char) (a b : List Char) :
    fields sep (a ++ sep :: b) = fields sep a ++ fields sep b := by
  induction a with
  | nil => exact if_pos rfl
  | cons c a ih =>
    rw [List.cons_append, fields, fields, ih]
    split
    · rfl
    · cases h : fields sep a with
      | nil => exact absurd h (fields_ne_nil sep a)
      | cons f fs => rfl

theorem fields_of_notMem {sep : Char} {s : List Char} (h : sep ∉ s) : fields sep s = [s] := by
  induction s with
  | nil => rfl
  | cons c s ih =>
    rw [List.mem_cons, not_or] at h
    rw [fields, if_neg (Ne.symm h.1), ih h.2]

/-- Parts without the separator come back when what they are joined to is cut. -/
theorem fields_join {sep : Char} {fs : List (List Char)} (hne : fs ≠ []) (h : ∀ f ∈ fs, sep ∉ f) :
    fields sep (join [sep] fs) = fs := by
  induction fs with
  | nil => exact absurd rfl hne
  | cons f fs ih =>
    rw [List.forall_mem_cons] at h
    cases fs with
    | nil => exact fields_of_notMem h.1
    | cons g gs =>
      rw [join, List.append_assoc, List.singleton_append, fields_append, fields_of_notMem h.1,
        ih (List.cons_ne_nil g gs) h.2, List.singleton_append]

end Sigil.Text

namespace Sigil.Path

open Text

/-! ## Components -/

def steps (segments : List (List Char)) : List Component :=
  (segments.filter (!isIdle ·)).map Component.ofSegment

theorem steps_append (a b : List (List Char)) : steps (a ++ b) = steps a ++ steps b := by
  rw [steps, List.filter_append, List.map_append, steps, steps]

/-- What a path's first segment is; `more` says whether there are others. -/
def first (s : List Char) (more : Bool) : List Component :=
  if s = ['.'] then [.here] else if s = [] ∧ more = true then [.root] else steps [s]

theorem first_of_ne_nil {s : List Char} (h : s ≠ []) (a b : Bool) : first s a = first s b := by
  simp only [first, h, false_and]

theorem components_eq {p : String} {s : List Char} {r : List (List Char)}
    (h : fields '/' p.toList = s :: r) : components p = first s (!r.isEmpty) ++ steps r := by
  unfold components split
  rw [h]
  cases r with
  | nil =>
    simp only [first]
    split
    · rfl
    · simp [steps, Lead.components]
  | cons f fs =>
    by_cases hnil : s = []
    · subst hnil
      rfl
    · by_cases hdot : s = ['.']
      · subst hdot
        rfl
      · simp only [first, hnil, hdot, false_and, if_false]
        exact steps_append [s] (f :: fs)

theorem eq_empty_of_fields {p : String} (h : fields '/' p.toList = [[]]) : p = "" := by
  have hjoin := join_fields '/' p.toList
  rw [h] at hjoin
  exact String.toList_eq_nil_iff.1 hjoin.symm

theorem components_ne_nil {p : String} (h : p ≠ "") : components p ≠ [] := by
  obtain ⟨s, r, hfields⟩ := List.exists_cons_of_ne_nil (fields_ne_nil '/' p.toList)
  rw [components_eq hfields]
  intro hnil
  obtain ⟨hfirst, -⟩ := List.append_eq_nil_iff.1 hnil
  unfold first at hfirst
  split at hfirst
  · cases hfirst
  · rename_i hdot
    split at hfirst
    · cases hfirst
    · rename_i hroot
      by_cases hs : s = []
      · have hr : r = [] := by simpa [hs] using hroot
        rw [hs, hr] at hfields
        exact h (eq_empty_of_fields hfields)
      · simp [steps, isIdle, hs, hdot] at hfirst

theorem components_append {p q : String} (hp : p ≠ "") (hq : startsWith q.toList ['/'] = false) :
    components (append p q) = components p ++ steps (fields '/' q.toList) := by
  have hne : p.isEmpty = false := by simpa using hp
  have more (r : List (List Char)) : (r ++ fields '/' q.toList).isEmpty = false := by
    simp [fields_ne_nil]
  rw [append, if_neg (by simp [hq]), hne, Bool.false_or]
  split
  · rename_i hends
    obtain ⟨u, hu⟩ : ∃ u, p.toList = u ++ '/' :: [] := by
      obtain ⟨u, hu⟩ := Option.isSome_iff_exists.1 hends
      exact ⟨u, before?_eq_some_iff.1 hu⟩
    obtain ⟨s, r, hfields⟩ := List.exists_cons_of_ne_nil (fields_ne_nil '/' u)
    have hleft : fields '/' p.toList = s :: (r ++ [[]]) := by
      rw [hu, fields_append, hfields]
      rfl
    have hright : fields '/' (p ++ q).toList = s :: (r ++ fields '/' q.toList) := by
      rw [String.toList_append, hu, List.append_assoc, List.cons_append, List.nil_append,
        fields_append, hfields]
      rfl
    have hidle : steps [[]] = [] := rfl
    have hmore : (r ++ [[]]).isEmpty = false := by simp
    rw [components_eq hleft, components_eq hright, more, hmore, steps_append, steps_append, hidle,
      List.append_nil, List.append_assoc]
  · obtain ⟨s, r, hfields⟩ := List.exists_cons_of_ne_nil (fields_ne_nil '/' p.toList)
    have hright : fields '/' (p ++ "/" ++ q).toList = s :: (r ++ fields '/' q.toList) := by
      have hslash : "/".toList = ['/'] := rfl
      rw [String.toList_append, String.toList_append, hslash, List.append_assoc,
        List.singleton_append, fields_append, hfields]
      rfl
    have hfirst : first s true = first s (!r.isEmpty) := by
      cases r with
      | nil =>
        refine first_of_ne_nil (fun hs => hp (eq_empty_of_fields ?_)) _ _
        rw [hfields, hs]
      | cons f fs => rfl
    rw [components_eq hfields, components_eq hright, more, steps_append, ← List.append_assoc,
      Bool.not_false, hfirst]

/-- A segment that is the name of a file or directory. -/
structure IsName (s : List Char) : Prop where
  ne_nil : s ≠ []
  ne_dot : s ≠ ['.']
  ne_up : s ≠ ['.', '.']
  noSlash : '/' ∉ s

theorem IsName.steps {s : List Char} (h : IsName s) : steps [s] = [.name s] := by
  have hidle : isIdle s = false := by
    simp [isIdle, h.ne_nil, h.ne_dot]
  simp [Path.steps, hidle, Component.ofSegment, h.ne_up]

theorem startsWith_slash_of_notMem {s : List Char} (h : '/' ∉ s) : startsWith s ['/'] = false := by
  cases s with
  | nil => rfl
  | cons c s =>
    rw [List.mem_cons, not_or] at h
    rw [startsWith, after?, if_neg h.1]
    rfl

theorem components_name {q : String} (h : IsName q.toList) : components q = [.name q.toList] := by
  rw [components_eq (fields_of_notMem h.noSlash), first, if_neg h.ne_dot, if_neg (by simp), h.steps]
  rfl

/-- A name behind a path leads one step down. -/
theorem components_append_name {p q : String} (h : IsName q.toList) :
    components (append p q) = components p ++ [.name q.toList] := by
  have hq := startsWith_slash_of_notMem h.noSlash
  by_cases hp : p = ""
  · subst hp
    rw [append, if_neg (by simp [hq])]
    exact components_name h
  · rw [components_append hp hq, fields_of_notMem h.noSlash, h.steps]

/-! ## Paths that lead down -/

/-- A relative path without a step up. -/
def Down (q : String) : Prop := ∀ c ∈ components q, c ≠ .root ∧ c ≠ .up

instance (q : String) : Decidable (Down q) := inferInstanceAs (Decidable (∀ c ∈ _, _))

def Component.IsName (c : Component) : Prop := ∃ s, c = .name s

theorem eq_of_mem_steps {c : Component} {fs : List (List Char)} (h : c ∈ steps fs) :
    c = .up ∨ c.IsName := by
  rw [steps, List.mem_map] at h
  obtain ⟨s, -, rfl⟩ := h
  unfold Component.ofSegment
  split
  · exact .inl rfl
  · exact .inr ⟨s, rfl⟩

theorem mem_tail_components {p : String} {c : Component} (h : c ∈ (components p).tail) :
    c = .up ∨ c.IsName := by
  obtain ⟨s, r, hfields⟩ := List.exists_cons_of_ne_nil (fields_ne_nil '/' p.toList)
  rw [components_eq hfields] at h
  unfold first at h
  split at h
  · exact eq_of_mem_steps h
  · split at h
    · exact eq_of_mem_steps h
    · rw [← steps_append] at h
      exact eq_of_mem_steps (List.mem_of_mem_tail h)

theorem IsName.down {q : String} (h : IsName q.toList) : Down q := by
  intro c hc
  rw [components_name h, List.mem_singleton] at hc
  subst hc
  exact ⟨nofun, nofun⟩

theorem Down.noSlash {q : String} (h : Down q) : startsWith q.toList ['/'] = false := by
  cases hq : q.toList with
  | nil => rfl
  | cons c r =>
    by_cases hc : c = '/'
    · subst hc
      have hfields : fields '/' q.toList = [] :: fields '/' r := by
        rw [hq, fields, if_pos rfl]
      have hroot : Component.root ∈ components q := by
        rw [components_eq hfields, first, if_neg (by decide), if_pos (by simp [fields_ne_nil])]
        exact List.mem_cons_self
      exact absurd rfl (h _ hroot).1
    · rw [startsWith, after?, if_neg (Ne.symm hc)]
      rfl

theorem Down.isName {q : String} (h : Down q) :
    ∀ c ∈ steps (fields '/' q.toList), c.IsName := by
  intro c hc
  refine (eq_of_mem_steps hc).resolve_left fun hup => ?_
  subst hup
  obtain ⟨s, r, hfields⟩ := List.exists_cons_of_ne_nil (fields_ne_nil '/' q.toList)
  refine (h .up ?_).2 rfl
  rw [hfields, ← List.singleton_append, steps_append, List.mem_append] at hc
  rw [components_eq hfields, List.mem_append]
  refine hc.imp_left fun hs => ?_
  unfold first
  split
  · rename_i hdot
    subst hdot
    cases hs
  · split
    · rename_i hnil
      rw [hnil.1] at hs
      cases hs
    · exact hs

/-- A path that leads down adds no step to the root and none up. -/
theorem Down.components_append {q : String} (h : Down q) (p : String) :
    ∃ cs, components (append p q) = components p ++ cs ∧ ∀ c ∈ cs, c ≠ .root ∧ c ≠ .up := by
  by_cases hp : p = ""
  · subst hp
    rw [append, if_neg (by simp [h.noSlash])]
    exact ⟨components q, rfl, h⟩
  · refine ⟨_, Path.components_append hp h.noSlash, fun c hc => ?_⟩
    obtain ⟨s, rfl⟩ := h.isName c hc
    exact ⟨nofun, nofun⟩

end Sigil.Path
