import Mathlib.Data.List.Nodup
import Sigil.Proofs.Template.Passage
import Sigil.Proofs.Template.Recording
import Sigil.Proofs.Template.Written

/-!
# The faults of a template

Every fault of a template comes of an `@` of its own (`Raises`): a directive that cannot be read, a
comment without an end, a code block or an import without a name. No other `@` has the same fault
(`Raises.unique`). The scan goes back to what a faulty directive has passed, but never to an `@`
that has raised a fault (`Raised`), so its faults are different and no more than there are `@`s
(`diagnostics_exact`).
-/

namespace Sigil.Template

open Text Cursor

/-! ## The `@` of a fault -/

/-- The `@` at a place has a fault. -/
inductive Raises (c : Cursor) : Fault → Prop where
  | directive {r : List Char} {f : Fault} : c.rest = '@' :: r →
      directive c.offset c.next = .error f → Raises c f
  | openComment {r : List Char} : c.rest = '@' :: '*' :: r →
      Raises c ⟨.unterminatedComment, c.offset⟩
  | block {r : List Char} : c.rest = '@' :: '{' :: r → Raises c ⟨.codeBlockUnsupported, c.offset⟩
  | emptyImport {r : List Char} : c.rest = '@' :: (importWord ++ r) →
      importName (restOfLine r).1 = [] →
      Raises c ⟨.emptyExpression, (c.next.advance importWord.length).offset⟩

section

variable {b c e : Cursor} {f : Fault} {s : List Char}

theorem mem_dropWhile {p : Char → Bool} {x : Char} (hx : x ∈ s) (hp : p x = false) :
    x ∈ s.dropWhile p := by
  induction s with
  | nil => cases hx
  | cons y s ih =>
    by_cases hy : p y = true
    · rw [List.dropWhile_cons_of_pos hy]
      refine ih ((List.mem_cons.1 hx).resolve_left ?_)
      rintro rfl
      rw [hp] at hy
      cases hy
    · rwa [List.dropWhile_cons_of_neg hy]

theorem mem_dropEndWhile {p : Char → Bool} {x : Char} (hx : x ∈ s) (hp : p x = false) :
    x ∈ dropEndWhile p s :=
  List.mem_reverse.2 (mem_dropWhile (List.mem_reverse.2 hx) hp)

theorem importName_ne_nil (h : '@' ∈ s) : importName s ≠ [] := by
  have hblank : isBlank '@' = false := by decide
  have htrim {t : List Char} (ht : '@' ∈ t) : '@' ∈ trim t :=
    mem_dropEndWhile (mem_dropWhile ht hblank) hblank
  exact List.ne_nil_of_mem (htrim (mem_dropEndWhile (htrim h) (by decide)))

theorem Raises.rest (h : Raises c f) : ∃ r, c.rest = '@' :: r := by
  cases h with
  | directive hc => exact ⟨_, hc⟩
  | openComment hc => exact ⟨_, hc⟩
  | block hc => exact ⟨_, hc⟩
  | emptyImport hc => exact ⟨_, hc⟩

/-- A fault stands at its `@`, or what it is about gets stuck behind it. -/
theorem Raises.stuck (h : Raises c f) :
    f.position = c.offset ∧ f.cause.StandsAtSign ∨ ∃ s e, Stuck c.next f s e := by
  cases h with
  | directive _ hf =>
    rcases directive_eq_error hf with rfl | hs
    · exact .inl ⟨rfl, .empty⟩
    · exact .inr hs
  | openComment => exact .inl ⟨rfl, .comment⟩
  | block => exact .inl ⟨rfl, .block⟩
  | @emptyImport r hc hname =>
    have hn : c.next.rest = importWord ++ r := by simp [hc]
    have hword : Unquoted importWord := by simp [Unquoted, importWord]
    refine .inr ⟨importWord, _, Spans.advance_length hn, .unquoted hword, rfl, fun _ hhead => ?_⟩
    rw [rest_advance, hn, List.drop_left] at hhead
    obtain ⟨u, rfl⟩ := List.head?_eq_some_iff.1 hhead
    have hat : '@' ∈ (restOfLine ('@' :: u)).1 := by simp [restOfLine]
    exact importName_ne_nil hat hname

theorem Raises.exists_place (h : Raises c f) :
    ∃ s e, Spans c s e ∧ f.position = e.offset := by
  obtain ⟨r, hr⟩ := h.rest
  rcases h.stuck with ⟨hposition, -⟩ | ⟨s, e, hs⟩
  · exact ⟨[], c, Spans.refl c, hposition⟩
  · exact ⟨_, e, (Spans.next hr).trans hs.spans, hs.position_eq⟩

theorem Raises.unique {x : Char} (h : Raises b f) (hb : Spans b (x :: s) c) : ¬ Raises c f := by
  intro h'
  obtain ⟨r', hr'⟩ := h'.rest
  obtain ⟨x', s', hs', hnext⟩ := hb.head_next (List.cons_ne_nil x s)
  have hlt : b.offset < c.offset := by
    have := byteLength_pos (List.cons_ne_nil x s)
    rw [hb.offset]
    omega
  obtain ⟨t, e, ht, hposition⟩ := h'.exists_place
  have hle : c.offset ≤ f.position := by
    rw [hposition, ht.offset]
    omega
  rcases h.stuck with ⟨hat, -⟩ | ⟨u, e₁, hu⟩
  · omega
  rcases h'.stuck with ⟨hat, hcause⟩ | ⟨u', e₂, hu'⟩
  · -- the first directive is stuck at the second `@`
    have hsame : u = s' := by
      refine eq_of_byteLength_eq ⟨_, hu.spans.rest.symm⟩ ⟨_, hnext.rest.symm⟩ ?_
      have h₁ := hu.spans.offset
      have h₂ := hnext.offset
      have h₃ := hu.position_eq
      omega
    subst hsame
    have hahead := hu.ahead hcause
    rw [hu.spans.unique hnext, hr'] at hahead
    exact hahead rfl
  · have hall := hnext.trans ((Spans.next hr').trans hu'.spans)
    have hsame : u = s' ++ ('@' :: u') := by
      refine eq_of_byteLength_eq ⟨_, hu.spans.rest.symm⟩ ⟨_, hall.rest.symm⟩ ?_
      have h₁ := hu.spans.offset
      have h₂ := hall.offset
      have h₃ := hu.position_eq
      have h₄ := hu'.position_eq
      rw [List.singleton_append] at h₂
      omega
    exact hu.passage.ne hu'.passage s' hsame

end

/-! ## The faults of the scan -/

/-- The faults of an `@` each, one behind the other between two places. -/
inductive Raised (a : Cursor) : List Fault → Cursor → Prop where
  | start : Raised a [] a
  | pass {fs : List Fault} {c e : Cursor} {s : List Char} : Raised a fs c → Spans c s e →
      Raised a fs e
  | raise {fs : List Fault} {f : Fault} {c e : Cursor} {x : Char} {s : List Char} :
      Raised a fs c → Raises c f → Spans c (x :: s) e → Raised a (fs ++ [f]) e

namespace Raised

variable {a c : Cursor} {fs : List Fault} {f : Fault}

theorem next {x : Char} {r : List Char} (h : Raised a fs c) (hr : c.rest = x :: r) :
    Raised a fs c.next := h.pass (Spans.next hr)

theorem raise_next (h : Raised a fs c) (hf : Raises c f) : Raised a (fs ++ [f]) c.next := by
  obtain ⟨r, hr⟩ := hf.rest
  exact h.raise hf (Spans.next hr)

/-- There are no more faults than `@`s. -/
theorem exists_count (h : Raised a fs c) : ∃ s, Spans a s c ∧ fs.length ≤ s.count '@' := by
  induction h with
  | start => exact ⟨[], Spans.refl a, Nat.le_refl _⟩
  | @pass fs c e t _ ht ih =>
    obtain ⟨s, hs, hle⟩ := ih
    refine ⟨s ++ t, hs.trans ht, ?_⟩
    rw [List.count_append]
    omega
  | @raise fs f c e x t _ hf ht ih =>
    obtain ⟨s, hs, hle⟩ := ih
    obtain ⟨r, hr⟩ := hf.rest
    have hx : x = '@' := by
      have := hr.symm.trans ht.rest
      exact (List.cons.inj this).1.symm
    refine ⟨s ++ x :: t, hs.trans ht, ?_⟩
    rw [List.count_append, hx, List.count_cons_self, List.length_append, List.length_singleton]
    omega

theorem exists_raises (h : Raised a fs c) (hf : f ∈ fs) :
    ∃ b t x s, Raises b f ∧ Spans a t b ∧ Spans b (x :: s) c := by
  induction h with
  | start => cases hf
  | pass _ ht ih =>
    obtain ⟨b, u, x, s, hb, hu, hs⟩ := ih hf
    exact ⟨b, u, x, s ++ _, hb, hu, hs.trans ht⟩
  | @raise fs g c e x t hraised hg ht ih =>
    rcases List.mem_append.1 hf with hf | hf
    · obtain ⟨b, u, y, s, hb, hu, hs⟩ := ih hf
      exact ⟨b, u, y, s ++ _, hb, hu, hs.trans ht⟩
    · obtain ⟨u, hu, -⟩ := hraised.exists_count
      rw [List.mem_singleton.1 hf]
      exact ⟨c, u, x, t, hg, hu, ht⟩

theorem nodup (h : Raised a fs c) : fs.Nodup := by
  induction h with
  | start => exact List.nodup_nil
  | pass _ _ ih => exact ih
  | @raise fs f c e x t hraised hf _ ih =>
    refine List.nodup_append.2 ⟨ih, List.pairwise_singleton _ _, ?_⟩
    intro g hg k hk hgk
    rw [List.mem_singleton.1 hk] at hgk
    obtain ⟨b, u, y, s, hb, -, hs⟩ := hraised.exists_raises hg
    exact hb.unique hs (hgk ▸ hf)

theorem exists_place (h : Raised a fs c) (hf : f ∈ fs) :
    ∃ s e, Spans a s e ∧ f.position = e.offset := by
  obtain ⟨b, t, -, -, hb, ht, -⟩ := h.exists_raises hf
  obtain ⟨s, e, hs, hposition⟩ := hb.exists_place
  exact ⟨t ++ s, e, ht.trans hs, hposition⟩

/-- A directive that is read leaves its text behind. -/
theorem express {x : Expr} {r : List Char} {e : Cursor} (h : Raised a fs c) (hr : c.rest = '@' :: r)
    (hx : directive c.offset c.next = .ok (x, e)) : Raised a fs e := by
  obtain ⟨y, s, hs, -⟩ := yields_of_directive hx
  exact (h.next hr).pass hs

theorem readValue (quote : Char) (v : ValueDraft) (h : Raised a (fs ++ v.faults) c) :
    Raised a (fs ++ (readValue quote v c).1.faults) ((readValue quote v c).2.getD c.toEnd) := by
  fun_induction Template.readValue quote v c with
  | case1 v c hr => exact h.pass (Spans.toEnd c)
  | case2 v c r hr =>
    rw [ValueDraft.faults_close]
    exact h
  | case3 v c x r hr _ _ _ ih =>
    rw [← toEnd_eq (Spans.next hr)]
    exact ih (by rw [ValueDraft.faults_close]; exact h.next hr)
  | case4 v c r hn hr _ _ _ ih =>
    rw [← toEnd_eq (Spans.advance 2 c)]
    have hfaults : (v.escape c).faults = v.faults := ValueDraft.faults_push v c '@'
    exact ih (by rw [hfaults]; exact h.pass (Spans.advance 2 c))
  | case5 v c r _ _ hr _ _ _ ih =>
    rw [← toEnd_eq (Spans.next hr)]
    exact ih (by rw [ValueDraft.faults_push]; exact h.next hr)
  | case6 v c r _ _ y t hx _ hr _ _ _ ih =>
    obtain ⟨z, s, hs, -⟩ := yields_of_directive hx
    rw [← toEnd_eq ((Spans.next hr).trans hs)]
    exact ih (by rw [ValueDraft.faults_express]; exact h.express hr hx)
  | case7 v c r _ _ f hf hr _ _ _ ih =>
    rw [← toEnd_eq (Spans.next hr)]
    refine ih ?_
    rw [ValueDraft.faults_push, ValueDraft.fault, ← List.append_assoc]
    exact h.raise_next (.directive hr hf)
  | case8 v c x r hr _ _ _ _ ih =>
    rw [← toEnd_eq (Spans.next hr)]
    exact ih (by rw [ValueDraft.faults_push]; exact h.next hr)

section

variable {src : Source} {d : Draft}

theorem readImport {r : List Char} (h : Raised a d.faults c)
    (hr : c.rest = '@' :: (importWord ++ r)) :
    Raised a (readImport (d.flush c) (c.next.advance importWord.length)).1.faults
      (readImport (d.flush c) (c.next.advance importWord.length)).2 := by
  have hn : c.next.rest = importWord ++ r := by simp [hr]
  have hpast := (Spans.next hr).trans ((Spans.advance_length hn).trans
    (Spans.advance (restOfLine (c.next.advance importWord.length).rest).2 _))
  simp only [Template.readImport, List.isEmpty_iff]
  split
  · rename_i hname
    rw [rest_advance, hn, List.drop_left] at hname
    exact h.raise (.emptyImport hr hname) hpast
  · exact h.pass hpast

theorem transition {r : List Char} (h : Raised a d.faults c) (hr : c.rest = '@' :: r) :
    Raised a (transition src d c).1.faults (transition src d c).2 := by
  unfold Template.transition
  split
  · exact h.next hr
  · split
    · exact h.pass (Spans.advance 2 c)
    · rename_i u hu
      have hopen : c.rest = '@' :: '*' :: u := by
        rw [hr]
        simpa [hr] using hu
      split
      · exact (h.pass (Spans.advance 2 c)).pass (Spans.advance _ _)
      · exact h.raise (.openComment hopen) (hopen ▸ Spans.toEnd c)
    · rename_i u hu
      have hopen : c.rest = '@' :: '{' :: u := by
        rw [hr]
        simpa [hr] using hu
      exact h.raise (.block hopen) ((Spans.next hr).trans (Spans.advance _ _))
    · split
      · rename_i hstarts
        obtain ⟨u, hu⟩ := startsWith_iff_isPrefix.1 hstarts
        exact h.readImport (by rw [hu, hr]; simp [hr])
      · split
        · exact h.express hr ‹_›
        · exact h.raise_next (.directive hr ‹_›)

theorem tagStep {e : Draft} {t : Cursor} (h : Raised a d.faults c)
    (ht : tagStep src d c = .leave e t ∨ tagStep src d c = .stay e t) : Raised a e.faults t := by
  rcases tagStep_cases src d c with ⟨e', ⟨s, hs, -⟩, he⟩ | ⟨name, nameEnd, value, quote, hhead⟩
  · have hstays : e = d ∧ t = e' := by
      rcases he with he | he
      · rw [he] at ht
        rcases ht with ht | ht <;> cases ht
        exact ⟨rfl, rfl⟩
      · rw [he] at ht
        rcases ht with ht | ht <;> cases ht
        exact ⟨rfl, rfl⟩
    rw [hstays.1, hstays.2]
    exact h.pass hs
  · obtain ⟨s, hs, -⟩ := hhead.clear_next
    have hvalue : Raised a (d.faults ++ (ValueDraft.start value.next).faults) value.next := by
      rw [ValueDraft.start, List.append_nil]
      exact h.pass hs
    have hread := hvalue.readValue quote
    rw [hhead.tagStep_eq] at ht
    cases hv : Template.readValue quote (.start value.next) value.next with
    | mk v close =>
      rw [hv] at hread
      cases close with
      | none =>
        rw [quotedStep_open hv] at ht
        rcases ht with ht | ht <;> cases ht
        rw [← toEnd_eq hs]
        exact hread
      | some close =>
        obtain ⟨r, hr⟩ := List.head?_eq_some_iff.1 (length_of_readValue hv).2
        rw [quotedStep_closed hv] at ht
        rcases ht with ht | ht <;> cases ht
        rw [faults_attribute]
        exact hread.next hr

theorem attributes (h : Raised a d.faults c) :
    Raised a (attributes src d c).1.faults (attributes src d c).2 := by
  fun_induction Template.attributes src d c with
  | case1 d c e t ht => exact h.tagStep (.inl ht)
  | case2 d c e t ht _ ih => exact ih (h.tagStep (.inr ht))

theorem step (h : Raised a d.faults c) (hc : c.rest ≠ []) :
    Raised a (step src d c).1.faults (step src d c).2 := by
  unfold Template.step
  split
  · exact h.transition ‹_›
  · rename_i x r hr
    split
    · exact ((h.next hr).pass (Spans.skipWhile isTagNamePart c.next)).attributes
    · exact h.next hr
  · obtain ⟨x, r, hr⟩ := List.exists_cons_of_ne_nil hc
    exact h.next hr

theorem scan (h : Raised a d.faults c) :
    ∃ e, e.rest = [] ∧ Raised a (scan src d c).faults e := by
  fun_induction Template.scan src d c with
  | case1 d c hc => exact ⟨c, hc, h⟩
  | case2 d c hc _ ih => exact ih (h.step hc)

end

end Raised

theorem raised_scanned (src : Source) :
    ∃ e, e.rest = [] ∧ Raised (.start src.text) (scanned src).faults e :=
  Raised.scan (d := .start src.text) .start

theorem ofFault_injective (text : List Char) : Function.Injective (Diagnostic.ofFault text) := by
  intro f g h
  have hcause : f.cause = g.cause := congrArg Diagnostic.cause h
  have hposition : f.position = g.position := congrArg Diagnostic.position h
  cases f
  cases g
  simp only at hcause hposition
  rw [hcause, hposition]

/-! ## The directives that the scan tries -/

/-- The reading of a value that starts at `a` comes to a place, with what has been read of it. -/
inductive VisitsValue (quote : Char) (a : Cursor) : ValueDraft → Cursor → Prop where
  | start : VisitsValue quote a (.start a) a
  | other {v : ValueDraft} {c : Cursor} {x : Char} {r : List Char} : VisitsValue quote a v c →
      c.rest = x :: r → x ≠ quote → x ≠ '@' →
      VisitsValue quote a (if isAsciiBlank x then v.close c else v.push c x) c.next
  | escape {v : ValueDraft} {c : Cursor} {r : List Char} : VisitsValue quote a v c →
      c.rest = '@' :: '@' :: r → VisitsValue quote a (v.escape c) (c.advance 2)
  | word {v : ValueDraft} {c : Cursor} {r : List Char} : VisitsValue quote a v c →
      c.rest = '@' :: r → r.head? ≠ some '@' → c.afterWord = true →
      VisitsValue quote a (v.push c '@') c.next
  | express {v : ValueDraft} {c e : Cursor} {r : List Char} {x : Expr} : VisitsValue quote a v c →
      c.rest = '@' :: r → r.head? ≠ some '@' → c.afterWord = false →
      directive c.offset c.next = .ok (x, e) → VisitsValue quote a (v.express c e x) e
  | fault {v : ValueDraft} {c : Cursor} {r : List Char} {f : Fault} : VisitsValue quote a v c →
      c.rest = '@' :: r → r.head? ≠ some '@' → c.afterWord = false →
      directive c.offset c.next = .error f →
      VisitsValue quote a ((v.fault f).push c '@') c.next

theorem VisitsValue.readValue_eq {quote : Char} {a c : Cursor} {v : ValueDraft}
    (hq : quote ≠ '@') (h : VisitsValue quote a v c) :
    readValue quote (.start a) a = readValue quote v c := by
  induction h with
  | start => rfl
  | other _ hc hx hat ih => exact ih.trans (readValue_other _ hc hx hat)
  | escape _ hc ih => exact ih.trans (readValue_escape _ hc hq)
  | word _ hc hn hw ih => rw [ih, readValue_sign _ hc hq hn, if_pos hw]
  | express _ hc hn hw hx ih => exact ih.trans (readValue_directive _ hc hq hn hw hx)
  | fault _ hc hn hw hf ih => exact ih.trans (readValue_fault _ hc hq hn hw hf)

/-- The scan tries to read a directive at an `@`, of the markup or of a quoted value. -/
inductive Tries (src : Source) (c : Cursor) : Prop where
  | markup {d : Draft} {r : List Char} : Visits src d c → c.rest = '@' :: r →
      c.afterWord = false → (∀ x ∈ r.head?, x ≠ '@' ∧ x ≠ '*' ∧ x ≠ '{') →
      startsWith r importWord = false → Tries src c
  | value {d : Draft} {v : ValueDraft} {before name nameEnd value : Cursor} {quote : Char}
      {r : List Char} : VisitsTag src d before → AttributeHead before name nameEnd value quote →
      VisitsValue quote value.next v c → c.rest = '@' :: r → r.head? ≠ some '@' →
      c.afterWord = false → Tries src c

section

variable {src : Source} {c : Cursor} {f : Fault} {d : Draft} {r : List Char}

theorem step_refused (hc : c.rest = '@' :: r) (hw : c.afterWord = false)
    (hn : ∀ x ∈ r.head?, x ≠ '@' ∧ x ≠ '*' ∧ x ≠ '{') (hi : startsWith r importWord = false)
    (hf : directive c.offset c.next = .error f) :
    step src d c = ({ d with faults := d.faults ++ [f] }, c.next) := by
  have hr : c.next.rest = r := by simp [hc]
  unfold step
  rw [hc]
  simp only
  unfold transition
  simp only [hw, hr, hi, hf]
  split
  · exact absurd ‹_› (by decide)
  · split
    · exact absurd rfl (hn '@' (by simp)).1
    · exact absurd rfl (hn '*' (by simp)).2.1
    · exact absurd rfl (hn '{' (by simp)).2.2
    · rfl

/-- The fault of a directive that the scan tries is a fault of the template. -/
theorem Tries.mem_faults (h : Tries src c) (hf : directive c.offset c.next = .error f) :
    f ∈ (scanned src).faults := by
  cases h with
  | @markup d r hd hc hw hn hi =>
    have hnext := hd.step (hc ▸ List.cons_ne_nil '@' r)
    rw [step_refused hc hw hn hi hf] at hnext
    obtain ⟨fs, hfs⟩ := (later_of_visits hnext).faults
    rw [hfs]
    exact List.mem_append_left fs (List.mem_append_right d.faults (List.mem_singleton_self f))
  | @value d v before name nameEnd value quote r hd ha hv hc hn hw =>
    have hq : quote ≠ '@' := by
      rintro rfl
      exact absurd ha.quote_eq (by decide)
    refine mem_faults_of_readValue hd ha ?_
    obtain ⟨fs, hfs⟩ := faults_readValue quote ((v.fault f).push c '@') c.next
    rw [(hv.fault hc hn hw hf).readValue_eq hq, hfs, ValueDraft.faults_push]
    exact List.mem_append_left fs (List.mem_append_right v.faults (List.mem_singleton_self f))

end

/-- Every diagnostic of a template is an error at a place of the template, with the line and the
column of that place. No diagnostic is there twice, and there are no more than `@`s. A directive is
read and nothing is recorded, or it is not and one fault is. Each directive that the scan tries and
cannot read has one diagnostic, that of its fault. -/
theorem diagnostics_exact (src : Source) (names : ClassNames) :
    (∀ d ∈ (src.parse names).diagnostics,
      d.severity = .error ∧ (d.line, d.column) = lineColumn src.text d.position ∧
        ∃ u v, src.text = u ++ v ∧ d.position = byteLength u) ∧
    (src.parse names).diagnostics.Nodup ∧
    (src.parse names).diagnostics.length ≤ src.text.count '@' ∧
    (∀ (at_ : Nat) (c : Cursor) (log : List Fault),
      (∃ x, directive at_ c = .ok x ∧ (Recording.directive at_ c).runWith log = (some x, log)) ∨
      ∃ f, directive at_ c = .error f ∧
        (Recording.directive at_ c).runWith log = (none, log ++ [f])) ∧
    ∀ (c : Cursor) (f : Fault), Tries src c → directive c.offset c.next = .error f →
      (src.parse names).diagnostics.count (.ofFault src.text f) = 1 := by
  obtain ⟨e, he, hraised⟩ := raised_scanned src
  rw [diagnostics_parse]
  have hnodup := hraised.nodup.map (ofFault_injective src.text)
  refine ⟨?_, hnodup, ?_, fun at_ c log => ?_, fun c f hc hf => ?_⟩
  · intro d hd
    obtain ⟨f, hf, rfl⟩ := List.mem_map.1 hd
    obtain ⟨u, t, hu, hposition⟩ := hraised.exists_place hf
    exact ⟨rfl, rfl, u, t.rest, hu.rest, hposition.trans hu.offset_start⟩
  · obtain ⟨s, hs, hle⟩ := hraised.exists_count
    have hall : src.text = s := by
      have := hs.rest
      rwa [he, List.append_nil] at this
    rwa [List.length_map, hall]
  · rw [Recording.runWith_directive]
    cases hx : directive at_ c with
    | ok x => exact .inl ⟨x, rfl, rfl⟩
    | error f => exact .inr ⟨f, rfl, rfl⟩
  · exact List.count_eq_one_of_mem hnodup (List.mem_map_of_mem (hc.mem_faults hf))

/-- An `@` behind a letter of two bytes and a blank, with nothing to read, is reported at its
offset. -/
theorem lone_sign_reported :
    let src : Source := ⟨"é @,".toList, "greeting"⟩
    let c := (Cursor.start src.text).next.next
    Tries src c ∧ directive c.offset c.next = .error ⟨.emptyExpression, 3⟩ ∧
      (src.parse {}).diagnostics.count
        (.ofFault src.text ⟨.emptyExpression, 3⟩) = 1 := by
  intro src c
  have hv : Visits src (.start src.text) c := by
    have h := (show Visits src (.start src.text) (.start src.text) from .start).step (by decide)
    rw [step_other src _ (x := 'é') (r := " @,".toList) rfl (by decide) (by decide)] at h
    have h := h.step (by decide)
    rwa [step_other src _ (x := ' ') (r := "@,".toList) rfl (by decide) (by decide)] at h
  have hc : Tries src c := .markup hv (r := [',']) rfl rfl (by simp) rfl
  exact ⟨hc, rfl, (diagnostics_exact src _).2.2.2.2 c _ hc rfl⟩

end Sigil.Template
