import Sigil.Proofs.Template.Written
import Sigil.Proofs.Text.Trim

/-!
# Imports of a template

An import is the word `using` and a blank behind an `@`, and reaches to the end of the line. The
scan takes the names of exactly those imports that it comes to (`mem_imports_scanned`). One that
names nothing is a fault of the template (`faults_of_processes`).
-/

namespace Sigil.Template

open Text Cursor

/-! ## Imports at a place -/

/-- The argument of the import that stands at a place, if one does. -/
def argument? (c : Cursor) : Option (List Char) :=
  if c.afterWord then none
  else (after? ('@' :: importWord) c.rest).map (·.takeWhile (· ≠ '\n'))

/-- What an argument names; trimmed and without semicolons it may be nothing. -/
def importOf? (argument : List Char) : Option String :=
  if importName argument = [] then none else some (String.ofList (importName argument))

theorem importOf?_eq_some {a : List Char} {x : String} :
    importOf? a = some x ↔ x ≠ "" ∧ importName a = x.toList := by
  rw [importOf?, Option.ite_none_left_eq_some, Option.some_inj]
  constructor
  · rintro ⟨hne, rfl⟩
    exact ⟨fun h => hne (by simpa using h), String.toList_ofList.symm⟩
  · rintro ⟨hne, h⟩
    rw [h, String.ofList_toList]
    exact ⟨fun h => hne (String.toList_eq_nil_iff.1 h), rfl⟩

theorem isTrimmed_separated {x gap ends : List Char} (hx : x ≠ []) (ht : IsTrimmed x)
    (hends : ∀ c ∈ ends, c = ';') (hgap : ends = [] → gap = []) :
    IsTrimmed (x ++ gap ++ ends) := by
  constructor
  · rw [List.append_assoc, List.head?_append_of_ne_nil _ hx]
    exact ht.1
  · cases he : ends.getLast? with
    | none =>
      obtain rfl := List.getLast?_eq_none_iff.1 he
      rw [hgap rfl, List.append_nil, List.append_nil]
      exact ht.2
    | some c =>
      rw [List.getLast?_append, he]
      rintro d ⟨⟩
      rw [hends _ (List.mem_of_getLast? he)]
      decide

theorem dropEndWhile_separated {x gap ends : List Char} (hgap : IsBlankText gap)
    (hends : ∀ c ∈ ends, c = ';') (hx : gap = [] → x.getLast? ≠ some ';') :
    dropEndWhile (· == ';') (x ++ gap ++ ends) = x ++ gap := by
  refine dropEndWhile_eq_iff.2 ⟨fun c hc => ?_, ends, fun c hc => by simpa using hends c hc, rfl⟩
  rw [beq_eq_false_iff_ne]
  rintro rfl
  cases hg : gap.getLast? with
  | none =>
    obtain rfl := List.getLast?_eq_none_iff.1 hg
    exact hx rfl (by simpa using hc)
  | some d =>
    rw [List.getLast?_append, hg] at hc
    cases hc
    have := hgap _ (List.mem_of_getLast? hg)
    exact absurd this (by decide)

/-- What is left of an argument is a text without blanks at its ends, between blanks and with
semicolons behind it. Its own last character is no semicolon, unless a blank stands between. -/
theorem importOf?_eq_some_iff {a : List Char} {x : String} : importOf? a = some x ↔
    x ≠ "" ∧ IsTrimmed x.toList ∧ ∃ before gap ends after, IsBlankText before ∧ IsBlankText gap ∧
      IsBlankText after ∧ (∀ c ∈ ends, c = ';') ∧
      a = before ++ (x.toList ++ gap ++ ends) ++ after ∧ (ends = [] → gap = []) ∧
      (gap = [] → x.toList.getLast? ≠ some ';') := by
  rw [importOf?_eq_some]
  refine and_congr_right fun hne => ?_
  constructor
  · intro h
    obtain ⟨ht, lead, gap, hlead, hgap, hstrip⟩ := trim_eq_iff.1 h
    obtain ⟨hlast, ends, hends, htrim⟩ := dropEndWhile_eq_iff.1 hstrip
    obtain ⟨hy, before, after, hbefore, hafter, ha⟩ := trim_eq_iff.1 htrim
    rw [List.append_assoc lead, List.append_assoc lead] at hy
    obtain rfl := hlead.eq_nil_of_head? hy.1
    refine ⟨ht, before, gap, ends, after, hbefore, hgap, hafter,
      fun c hc => by simpa using hends c hc, ha, ?_, ?_⟩
    · rintro rfl
      rw [List.append_nil] at hy
      exact hgap.eq_nil_of_getLast? hy.2
    · rintro rfl hc
      have := hlast ';' (by simpa using hc)
      cases this
  · rintro ⟨ht, before, gap, ends, after, hbefore, hgap, hafter, hends, rfl, hnogap, hclean⟩
    have htrimmed : IsTrimmed (x.toList ++ gap ++ ends) :=
      isTrimmed_separated (fun h => hne (String.toList_eq_nil_iff.1 h)) ht hends hnogap
    rw [importName, trim_eq_iff.2 ⟨htrimmed, before, after, hbefore, hafter, rfl⟩,
      dropEndWhile_separated hgap hends hclean]
    exact trim_eq_iff.2 ⟨ht, [], gap, nofun, hgap, rfl⟩

/-- The scan of a template comes to an import with some argument. -/
def Processes (src : Source) (argument : List Char) : Prop :=
  ∃ d c, Visits src d c ∧ argument? c = some argument

theorem argument?_eq_some_iff {c : Cursor} {a : List Char} : argument? c = some a ↔
    c.afterWord = false ∧ ∃ r, c.rest = '@' :: (importWord ++ r) ∧ a = r.takeWhile (· ≠ '\n') := by
  rw [argument?, Option.ite_none_left_eq_some, Bool.not_eq_true, Option.map_eq_some_iff]
  simp only [after?_eq_some_iff, List.cons_append, eq_comm (b := a)]

theorem rest_ne_nil_of_argument? {c : Cursor} {a : List Char} (h : argument? c = some a) :
    c.rest ≠ [] := by
  obtain ⟨-, r, hr, -⟩ := argument?_eq_some_iff.1 h
  rw [hr]
  exact List.cons_ne_nil _ _

/-! ## What a step adds -/

section

variable (src : Source) (d : Draft) {c : Cursor}

theorem imports_readImport (c : Cursor) :
    (readImport d c).1.imports = d.imports ++ (importOf? (restOfLine c.rest).1).toList := by
  simp only [readImport, importOf?, List.isEmpty_iff]
  split
  · exact (List.append_nil _).symm
  · rfl

theorem faults_readImport {c : Cursor} (h : importOf? (restOfLine c.rest).1 = none) :
    (readImport d c).1.faults = d.faults ++ [⟨.emptyExpression, c.offset⟩] := by
  have hname : importName (restOfLine c.rest).1 = [] := by
    by_contra hne
    rw [importOf?, if_neg hne] at h
    cases h
  simp only [readImport, hname, List.isEmpty_nil, if_true]
  rfl

theorem step_of_argument? {a : List Char} (ha : argument? c = some a) :
    ∃ e, step src d c = readImport (d.flush c) e ∧ (restOfLine e.rest).1 = a := by
  obtain ⟨hw, r, hr, rfl⟩ := argument?_eq_some_iff.1 ha
  have hn : c.next.rest = importWord ++ r := by simp [hr]
  have hstarts : startsWith (importWord ++ r) importWord = true := by
    rw [startsWith, after?_eq_some_iff.2 rfl]
    rfl
  refine ⟨c.next.advance importWord.length, ?_, ?_⟩
  · rw [step_at src d hr]
    unfold transition
    rw [if_neg (by simp [hw]), hn, if_pos hstarts]
    rfl
  · rw [restOfLine, rest_advance, hn, List.drop_left]

theorem imports_transition_of_none (hc : c.rest.head? = some '@') (ha : argument? c = none) :
    (transition src d c).1.imports = d.imports := by
  by_cases hw : c.afterWord = true
  · rw [transition, if_pos hw]
  · obtain ⟨r, hr⟩ := List.head?_eq_some_iff.1 hc
    have h : Transits src d c _ := transits_transition hr
    generalize transition src d c = y at h ⊢
    cases h with
    | word | escape | write | refuse => rfl
    | omits ho =>
      cases ho with
      | namedImport hs =>
        have := argument?_eq_some_iff.2 ⟨Bool.eq_false_iff.2 hw, _, by simpa using hs.rest, rfl⟩
        rw [ha] at this
        cases this
      | _ => exact List.append_nil _

theorem imports_attribute (before name nameEnd opened quote : Cursor) (v : ValueDraft) :
    (d.attribute src before name nameEnd opened quote v).imports = d.imports := by
  have hcuts : ∀ (es : List Cursor) (d : Draft),
      (es.foldl (fun d e => (d.flush e).resume e.next) d).imports = d.imports := by
    intro es
    induction es with
    | nil => exact fun _ => rfl
    | cons e es ih => exact fun d => ih ((d.flush e).resume e.next)
  unfold Draft.attribute
  split
  · rfl
  · exact hcuts v.escapes d

def TagStep.draft : TagStep → Draft
  | leave d _ => d
  | stay d _ => d

theorem imports_tagStep (c : Cursor) : (tagStep src d c).draft.imports = d.imports := by
  have h := strides_tagStep src d c
  generalize tagStep src d c = y at h ⊢
  cases h with
  | quoted =>
    unfold quotedStep
    split
    · rfl
    · exact imports_attribute src _ _ _ _ _ _ _
  | _ => rfl

theorem imports_attributes (c : Cursor) : (attributes src d c).1.imports = d.imports := by
  fun_induction attributes src d c with
  | case1 d c e t h =>
    have := imports_tagStep src d c
    rwa [h] at this
  | case2 d c e t h hlt ih =>
    have := imports_tagStep src d c
    rw [h] at this
    exact ih.trans this

/-- A step adds the import that it comes to, and no other. -/
theorem imports_step (c : Cursor) :
    (step src d c).1.imports = d.imports ++ ((argument? c).bind importOf?).toList := by
  cases ha : argument? c with
  | some a =>
    obtain ⟨e, he, hline⟩ := step_of_argument? src d ha
    rw [he, imports_readImport, hline]
    rfl
  | none =>
    rw [Option.bind_none, Option.toList_none, List.append_nil]
    unfold step
    split
    · rename_i hr
      exact imports_transition_of_none src d (by rw [hr]; rfl) ha
    · split
      · exact imports_attributes src d _
      · rfl
    · rfl

end

/-! ## What the scan adds -/

section

variable {src : Source} {d : Draft} {c : Cursor}

theorem mem_imports_scan_of_mem {x : String} (h : x ∈ d.imports) : x ∈ (scan src d c).imports := by
  fun_induction scan src d c with
  | case1 => exact h
  | case2 d c hc hlt ih =>
    refine ih ?_
    rw [imports_step]
    exact List.mem_append_left _ h

theorem processes_of_mem_scan (hd : Visits src d c) {x : String}
    (h : x ∈ (scan src d c).imports) :
    x ∈ d.imports ∨ ∃ a, Processes src a ∧ importOf? a = some x := by
  fun_induction scan src d c with
  | case1 => exact .inl h
  | case2 d c hc hlt ih =>
    -- what the step from here adds comes of the import that stands here
    rcases ih (.step hd hc) h with h | h
    · rw [imports_step, List.mem_append, Option.mem_toList, Option.bind_eq_some_iff] at h
      rcases h with h | ⟨a, ha, hx⟩
      · exact .inl h
      · exact .inr ⟨a, ⟨d, c, hd, ha⟩, hx⟩
    · exact .inr h

/-- A template imports exactly the names of the imports that its scan comes to. -/
theorem mem_imports_scanned {x : String} :
    x ∈ (scanned src).imports ↔ ∃ a, Processes src a ∧ importOf? a = some x := by
  constructor
  · intro h
    rcases processes_of_mem_scan .start h with h | h
    · exact absurd h List.not_mem_nil
    · exact h
  · rintro ⟨a, ⟨d, c, hd, ha⟩, hx⟩
    rw [scanned_of_visits hd, scan_step src d (rest_ne_nil_of_argument? ha)]
    refine mem_imports_scan_of_mem ?_
    rw [imports_step, ha, Option.bind_some, hx]
    exact List.mem_append_right _ List.mem_cons_self

theorem faults_of_processes {a : List Char} (h : Processes src a) (ha : importOf? a = none) :
    ∃ f ∈ (scanned src).faults, f.cause = .emptyExpression := by
  obtain ⟨d, c, hd, hc⟩ := h
  obtain ⟨e, he, hline⟩ := step_of_argument? src d hc
  obtain ⟨fs, hfs⟩ := (later_of_visits (hd.step (rest_ne_nil_of_argument? hc))).faults
  rw [he, faults_readImport _ (hline ▸ ha)] at hfs
  rw [hfs]
  exact ⟨_, List.mem_append_left fs (List.mem_append_right _ List.mem_cons_self), rfl⟩

end

end Sigil.Template
