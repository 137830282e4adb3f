import Sigil.Proofs.Template.Draft

/-!
# An `@` that is copied as text

An `@` behind a letter, a digit or another `@` is text. `literals_guarded_iff` says when a template
without diagnostics has no other `@` in its literals: exactly when no attribute value that is never
closed holds one. The scan gives up at such a value and copies all that is left, whatever the
directives in it.
-/

namespace Sigil.Template

open Text Cursor Relation

/-! ## Guarded text -/

/-- Every `@` of a text stands behind a letter, a digit or an `@`. `last` stands in front of the
text. -/
def guarded : Option Char → List Char → Bool
  | _, [] => true
  | last, x :: r => (x != '@' || last.any guardsAt) && guarded (some x) r

theorem guarded_append (last : Option Char) (s t : List Char) :
    guarded last (s ++ t) = (guarded last s && guarded (s.getLast?.or last) t) := by
  induction s generalizing last with
  | nil => rfl
  | cons x s ih =>
    have hl : (x :: s).getLast?.or last = s.getLast?.or (some x) := by
      rw [List.getLast?_cons]
      cases s.getLast? <;> rfl
    rw [List.cons_append, guarded, guarded, ih, hl, Bool.and_assoc]

theorem guarded_iff (last : Option Char) (s : List Char) :
    guarded last s = true ↔
      ∀ u w, s = u ++ '@' :: w → (u.getLast?.or last).any guardsAt = true := by
  constructor
  · intro h u w hs
    rw [hs, guarded_append, guarded, Bool.and_eq_true, Bool.and_eq_true] at h
    simpa using h.2.1
  · intro h
    induction s generalizing last with
    | nil => rfl
    | cons x s ih =>
      rw [guarded, Bool.and_eq_true]
      constructor
      · by_cases hx : x = '@'
        · subst hx
          simpa using h [] s rfl
        · simp [hx]
      · refine ih (some x) fun u w hs => ?_
        have := h (x :: u) w (by rw [hs, List.cons_append])
        rw [List.getLast?_cons] at this
        cases hu : u.getLast? with
        | none => simpa [hu] using this
        | some l => simpa [hu] using this

/-- The `@`s of a literal stand behind letters, digits and `@`s of the template. -/
def Statement.Guarded (template : List Char) (s : Statement) : Prop :=
  ∀ text position, s = .literal text position → ∀ u w, text.toList = u ++ '@' :: w →
    ∃ p l r, template = p ++ l :: '@' :: r ∧
      byteLength (p ++ [l]) = position + byteLength u ∧ guardsAt l = true

section

variable {src : Source} {d e : Draft} {c t : Cursor} {p s : List Char}

theorem guarded_literal_iff {a : Cursor} (ha : Spans (.start src.text) p a) (hs : Spans a s c) :
    (Statement.literal (String.ofList s) (byteLength p)).Guarded src.text ↔
      guarded a.last s = true := by
  have htext : src.text = p ++ s ++ c.rest := (ha.trans hs).rest
  have hlast : ∀ u : List Char, u.getLast?.or a.last = (p ++ u).getLast? := by
    intro u
    rw [List.getLast?_append, ha.last]
    exact congrArg _ Option.or_none
  rw [guarded_iff]
  constructor
  · intro h u w hu
    obtain ⟨q, l, r, hq, hlen, hl⟩ := h _ _ rfl u w (by rw [String.toList_ofList, hu])
    have hql : q ++ [l] <+: src.text := ⟨'@' :: r, by rw [hq, List.append_assoc]; rfl⟩
    have hpu : p ++ u <+: src.text := ⟨'@' :: w ++ c.rest, by simp [htext, hu]⟩
    have heq := eq_of_byteLength_eq hql hpu (hlen.trans (byteLength_append p u).symm)
    rw [hlast, ← heq, List.getLast?_concat]
    exact hl
  · intro h text position heq u w hu
    obtain ⟨rfl, rfl⟩ := Statement.literal.inj heq
    rw [String.toList_ofList] at hu
    have hl := h u w hu
    rw [hlast, Option.any_eq_true] at hl
    obtain ⟨l, hget, hg⟩ := hl
    obtain ⟨q, hq⟩ := List.getLast?_eq_some_iff.1 hget
    refine ⟨q, l, w ++ c.rest, ?_, ?_, hg⟩
    · rw [htext, hu, ← List.append_assoc, hq]
      simp
    · rw [← hq, byteLength_append]

/-- The literals and the literal run of a draft are guarded. -/
structure Guards (src : Source) (d : Draft) (c : Cursor) (p s : List Char) : Prop
    extends Located src d c p s where
  run_guarded : guarded d.pending.last s = true
  body_guarded : ∀ x ∈ d.body, x.Guarded src.text

theorem Statement.guarded_of_literal? {x : Statement} (hx : x.literal? = none)
    (template : List Char) : x.Guarded template := by
  intro text position heq
  subst heq
  cases hx

theorem Guards.flush (h : Guards src d c p s) : ∀ x ∈ (d.flush c).body, x.Guarded src.text := by
  rcases h.body_flush with ⟨-, hb⟩ | ⟨-, hb⟩
  · rw [hb]
    exact h.body_guarded
  · intro x hx
    rw [hb] at hx
    rcases List.mem_append.1 hx with hx | hx
    · exact h.body_guarded x hx
    · rw [List.mem_singleton.1 hx]
      exact (guarded_literal_iff h.before h.run).2 h.run_guarded

/-- A move without a fault keeps the literals guarded if the open values are. -/
theorem Guards.move (hopen : ∀ v, OpenValue src v → guarded v.last v.rest = true)
    (h : ∃ p s, Guards src d c p s) (hm : Move src (d, c) (e, t)) (he : e.faults = []) :
    ∃ p s, Guards src e t p s := by
  obtain ⟨p, s, h⟩ := h
  rcases run_of_move hm with ⟨hp, hb, hrun⟩ | ⟨hp, ss, hb, hss⟩
  · have longer : ∀ u, Spans c u t → guarded c.last u = true → ∃ p s, Guards src e t p s := by
      intro u hu hg
      refine ⟨p, s ++ u, ⟨hp ▸ h.before, hp ▸ h.run.trans hu⟩, ?_, hb ▸ h.body_guarded⟩
      rw [hp, guarded_append, h.run_guarded, ← h.run.last, hg]
      rfl
    rcases hrun with ⟨x, r, hr, ht, hx⟩ | hf | ⟨ho, ht⟩
    · refine longer [x] (ht ▸ Spans.next hr) ?_
      by_cases hat : x = '@'
      · simp [guarded, hx hat]
      · simp [guarded, hat]
    · exact absurd he hf
    · exact longer c.rest (ht ▸ Spans.toEnd c) (hopen c ho)
  · obtain ⟨u, hu⟩ := spans_of_move hm
    refine ⟨p ++ s ++ u, [], ⟨hp ▸ h.spans.trans hu, hp ▸ Spans.refl t⟩, rfl, fun x hx => ?_⟩
    rw [hb] at hx
    rcases List.mem_append.1 hx with hx | hx
    · exact h.flush x hx
    · exact x.guarded_of_literal? (hss x hx) src.text

theorem guards_of_moves (hopen : ∀ v, OpenValue src v → guarded v.last v.rest = true)
    (hm : Moves src (.start src.text, .start src.text) (e, t)) (he : e.faults = []) :
    ∃ p s, Guards src e t p s := by
  refine invariant_of_moves (fun d c => d.faults = [] → ∃ p s, Guards src d c p s) hm ?_ ?_ he
  · intro d c e t ih hm he
    obtain ⟨fs, hfs⟩ := faults_of_move hm
    rw [he] at hfs
    exact Guards.move hopen (ih (List.append_eq_nil_iff.1 hfs.symm).1) hm he
  · exact fun _ => ⟨[], [], .start src, rfl, by simp [Draft.start]⟩

/-! ## Open values -/

theorem scanned_of_openValue {v : Cursor} (h : OpenValue src v) :
    ∃ d p s, Located src d v p s ∧ (scanned src).body = (d.flush v.toEnd).body := by
  obtain ⟨d, before, name, nameEnd, value, quote, hd, ha, rfl, hv⟩ := h
  obtain ⟨p, s, hloc⟩ := located_of_moves (moves_to_visitTag hd)
  obtain ⟨u, hu, -⟩ := ha.clear_next
  refine ⟨d, p, s ++ u, ⟨hloc.before, hloc.run.trans hu⟩, ?_⟩
  rw [scanned_open hd ha (Prod.ext rfl hv), toEnd_eq hu]
  rfl

/-- Without diagnostics, the `@`s of all literals are guarded exactly when those of the open values
are. -/
theorem literals_guarded_iff (src : Source) (names : ClassNames)
    (h : (src.parse names).diagnostics = []) :
    (∀ x ∈ (src.parse names).tree.body names.execute, x.Guarded src.text) ↔
      ∀ v, OpenValue src v → guarded v.last v.rest = true := by
  rw [diagnostics_parse_eq_nil] at h
  rw [body_parse]
  constructor
  · intro hall v hv
    obtain ⟨d, p, s, hloc, hbody⟩ := scanned_of_openValue hv
    have hend : Located src d v.toEnd p (s ++ v.rest) :=
      ⟨hloc.before, hloc.run.trans (Spans.toEnd v)⟩
    rw [hbody] at hall
    rcases hend.body_flush with ⟨hs, -⟩ | ⟨-, hb⟩
    · rw [(List.append_eq_nil_iff.1 hs).2]
      rfl
    · rw [hb] at hall
      have hlit := hall _ (List.mem_append_right _ (List.mem_singleton_self _))
      rw [guarded_literal_iff hend.before hend.run, guarded_append, ← hloc.run.last,
        Bool.and_eq_true] at hlit
      exact hlit.2
  · intro hopen
    obtain ⟨e, t, hm, -, he⟩ := moves_of_start src
    rw [he] at h ⊢
    obtain ⟨p, s, hg⟩ := guards_of_moves hopen hm h
    exact hg.flush

end

/-! ## A directive in an open value -/

/-- A tag that is cut short in an attribute value: `<p a="@x`. -/
def cutTag (file : String) : Source := ⟨attributeTag ['@', 'x'], file⟩

section

variable (file : String)

theorem readValue_cutTag : ∃ v : ValueDraft, v.faults = [] ∧
    readValue '"' (.start ⟨6, some '"', ['@', 'x']⟩) ⟨6, some '"', ['@', 'x']⟩ = (v, none) := by
  have hx : directive 6 ⟨7, some '@', ['x']⟩ = .ok (.path "x", ⟨8, some 'x', []⟩) :=
    yields_path (s := ['x']) (by decide) (by decide) ⟨7, some '@', ['x']⟩ [] rfl stops_nil
  refine ⟨(ValueDraft.start ⟨6, some '"', ['@', 'x']⟩).express ⟨6, some '"', ['@', 'x']⟩
    ⟨8, some 'x', []⟩ (.path "x"), rfl, ?_⟩
  rw [readValue_directive _ rfl (by decide) (by decide) (by decide) hx, readValue_nil _ _ rfl]

theorem scanned_cutTag : (scanned (cutTag file)).faults = [] ∧
    (scanned (cutTag file)).body = [.literal (String.ofList (cutTag file).text) 0] := by
  obtain ⟨v, hf, hv⟩ := readValue_cutTag
  rw [cutTag, scanned_open (visitsTag_attributeTag _ file) (attributeHead_attributeTag _) hv]
  exact ⟨hf, rfl⟩

theorem openValue_cutTag : OpenValue (cutTag file) ⟨6, some '"', ['@', 'x']⟩ := by
  obtain ⟨v, -, hv⟩ := readValue_cutTag
  exact ⟨_, _, _, _, _, _, visitsTag_attributeTag _ file, attributeHead_attributeTag _, rfl,
    congrArg Prod.snd hv⟩

end

/-- The directive of an open value is neither read nor reported. -/
theorem directive_copied :
    ¬ ∀ (src : Source) (names : ClassNames), (src.parse names).diagnostics = [] →
      ∀ x ∈ (src.parse names).tree.body names.execute, x.Guarded src.text := by
  intro h
  obtain ⟨hf, hb⟩ := scanned_cutTag "page"
  have hg := h (cutTag "page") {} ((diagnostics_parse_eq_nil ..).2 hf)
  rw [body_parse, hb] at hg
  have hlit := (guarded_literal_iff (Spans.refl _) (Spans.toEnd (.start (cutTag "page").text))).1
    (hg _ (List.mem_singleton_self _))
  exact absurd hlit (by decide)

theorem cutTag_not_guarded : ((cutTag "page").parse {}).diagnostics = [] ∧
    ¬ ∀ x ∈ ((cutTag "page").parse {}).tree.body "execute", x.Guarded (cutTag "page").text := by
  have hf := (diagnostics_parse_eq_nil (cutTag "page") {}).2 (scanned_cutTag "page").1
  refine ⟨hf, fun hall => ?_⟩
  have hopen := (literals_guarded_iff (cutTag "page") {} hf).1 hall _ (openValue_cutTag "page")
  exact absurd hopen (by decide)

end Sigil.Template
