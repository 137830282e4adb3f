import Sigil.Proofs.Template.Zone

/-!
# Crossing text

The scan goes over plain text, without `@`s and quotes, as `Zone.next` says: into a tag of markup
(`crosses_tagName`), and by steps through the tag (`tagCrosses`). What is crossed in front of a
text with doubled `@`s is passed: the rest of the text is escapable as before (`passes_tagStep`).
-/

namespace Sigil.Template

open Text Cursor

/-! ## Plain text -/

/-- No `@` and no quote. -/
def Plain (s : List Char) : Prop := ∀ x ∈ s, x ≠ '@' ∧ x ≠ '"' ∧ x ≠ '\''

theorem Plain.append {s t : List Char} (hs : Plain s) (ht : Plain t) : Plain (s ++ t) :=
  List.forall_mem_append.2 ⟨hs, ht⟩

theorem Plain.cons {x : Char} {s : List Char} (hx : x ≠ '@' ∧ x ≠ '"' ∧ x ≠ '\'') (hs : Plain s) :
    Plain (x :: s) := List.forall_mem_cons.2 ⟨hx, hs⟩

theorem plain_takeWhile {p : Char → Bool} (hp : p '@' = false ∧ p '"' = false ∧ p '\'' = false)
    (s : List Char) : Plain (s.takeWhile p) := by
  intro x hx
  have hpx := List.all_eq_true.1 List.all_takeWhile x hx
  refine ⟨?_, ?_, ?_⟩ <;> rintro rfl <;> simp [hp] at hpx

/-! ## Text and zones -/

/-- From `c` to `e` over the text `t`, into a zone that leads on like the one behind the text. -/
structure Crosses (z : Zone) (c : Cursor) (t : List Char) (z' : Zone) (e : Cursor) : Prop where
  spans : Spans c t e
  alike : (z.walk t).Alike z' e.rest

namespace Crosses

variable {z z' z'' : Zone} {a b c : Cursor} {s t : List Char}

theorem congr (h : Crosses z a s z' b) (hz : z'.Alike z'' b.rest) : Crosses z a s z'' b :=
  ⟨h.spans, h.alike.trans hz⟩

theorem trans (h : Crosses z a s z' b) (h' : Crosses z' b t z'' c) :
    Crosses z a (s ++ t) z'' c := by
  refine ⟨h.spans.trans h'.spans, ?_⟩
  have hz := h.alike
  rw [h'.spans.rest] at hz
  rw [Zone.walk_append]
  exact hz.walk.trans h'.alike

theorem next {x : Char} {r : List Char} (hc : c.rest = x :: r) :
    Crosses z c [x] (z.next x) c.next := ⟨Spans.next hc, .refl⟩

/-- A run of characters that stay in a zone. -/
theorem skipWhile {p : Char → Bool} (hz : ∀ x, p x = true → z.next x = z) (c : Cursor) :
    Crosses z c (c.rest.takeWhile p) z (c.skipWhile p) := by
  refine ⟨Spans.skipWhile p c, ?_⟩
  rw [Zone.walk_stay fun x hx => hz x (List.all_eq_true.1 List.all_takeWhile x hx)]
  exact .refl

end Crosses

theorem not_of_head_skipWhile {p : Char → Bool} {c : Cursor} {x : Char}
    (hx : x ∈ (c.skipWhile p).rest.head?) : p x = false := by
  have := List.head?_dropWhile_not p c.rest
  rw [rest_skipWhile] at hx
  rw [Option.mem_def.1 hx] at this
  simpa using this

/-! ## Text of markup -/

section

variable {c : Cursor} {x : Char} {r : List Char}

theorem crosses_tagName (hc : c.rest = '<' :: x :: r) (hx : x.isAlpha = true) :
    ∃ t, Plain ('<' :: t) ∧ Crosses .markup c ('<' :: t) .tag (c.next.skipWhile isTagNamePart) := by
  have hn : c.next.rest = x :: r := by simp [hc]
  have hpart : isTagNamePart x = true := by simp [isTagNamePart, Char.isAlphanum, hx]
  have p₁ : Crosses .markup c ['<'] .opening c.next := .next hc
  have named : Zone.Alike .opening .tagName c.next.rest := by
    refine .head (by simp) (by simp) fun y hy => ?_
    rw [hn] at hy
    obtain rfl : x = y := by simpa using hy
    simp [Zone.next, hx, hpart]
  have p₂ := Crosses.skipWhile (z := .tagName) (p := isTagNamePart) (fun _ h => if_pos h) c.next
  have ended : Zone.Alike .tagName .tag (c.next.skipWhile isTagNamePart).rest := by
    refine .head (by simp) (by simp) fun y hy => ?_
    simp [Zone.next, not_of_head_skipWhile hy]
  exact ⟨_, .cons (by decide) (plain_takeWhile (by decide) _),
    (p₁.congr named).trans (p₂.congr ended)⟩

theorem crosses_other (hc : c.rest = x :: r) (hx : x = '<' → ∀ y ∈ r.head?, y.isAlpha = false) :
    Crosses .markup c [x] .markup c.next := by
  have p : Crosses .markup c [x] (Zone.next .markup x) c.next := .next hc
  refine p.congr ?_
  by_cases hlt : x = '<'
  · refine .head (by simp [Zone.next, hlt]) (by simp) fun y hy => ?_
    have halpha : y.isAlpha = false := hx hlt y (by simpa [hc] using hy)
    simp [Zone.next, hlt, halpha]
  · rw [Zone.next, if_neg hlt]
    exact .refl

end

/-! ## Steps through a tag -/

section

variable {c name nameEnd value : Cursor}

theorem inTag_of_blank {x : Char} (hx : isAsciiBlank x = true) : Zone.next .tag x = .tag :=
  if_pos hx

theorem afterName_of_blank {x : Char} (hx : isAsciiBlank x = true) :
    Zone.next .afterName x = .afterName := if_pos hx

theorem plain_blanks (s : List Char) : Plain (s.takeWhile isAsciiBlank) :=
  plain_takeWhile (by decide) s

theorem crosses_name (h : AttributeName c name nameEnd) :
    ∃ t, Plain t ∧ Crosses .tag c t .afterName nameEnd := by
  obtain ⟨x, r, hr, h₁, h₂, h₃, h₄, h₅, h₆, h₇⟩ := h.starts
  have hblank : isAsciiBlank x = false := not_of_head_skipWhile (by rw [← h.name_eq, hr]; rfl)
  have hname : Zone.next .tag x = .name := by
    simp [Zone.next, Zone.inTag, hblank, h₁, h₂, h₃, h₄, h₅, h₆, h₇]
  have p₁ := Crosses.skipWhile (fun _ => inTag_of_blank) c
  rw [← h.name_eq] at p₁
  have p₂ : Crosses .tag name [x] (Zone.next .tag x) name.next := .next hr
  rw [hname] at p₂
  have p₃ := Crosses.skipWhile (z := .name) (p := (!endsAttributeName ·))
    (fun y hy => if_neg (by simpa using hy)) name.next
  rw [← h.nameEnd_eq] at p₃
  have ended : Zone.Alike .name .afterName nameEnd.rest := by
    refine .head (by simp) (by simp) fun y hy => ?_
    rw [h.nameEnd_eq] at hy
    exact if_pos (by simpa using not_of_head_skipWhile hy)
  exact ⟨_, (plain_blanks _).append (.cons ⟨h₂, h₅, h₆⟩ (plain_takeWhile (by decide) _)),
    p₁.trans (p₂.trans (p₃.congr ended))⟩

/-- Behind a name without a value the scan is in the tag again. -/
theorem alike_tag {s : List Char} (hs : (s.dropWhile isAsciiBlank).head? ≠ some '=') :
    Zone.Alike .afterName .tag s := by
  induction s with
  | nil => exact .head (by simp) (by simp) (by simp)
  | cons x s ih =>
    by_cases hx : isAsciiBlank x = true
    · rw [List.dropWhile_cons_of_pos hx] at hs
      refine .blank (by simp) (by simp) hx ?_
      rw [afterName_of_blank hx, inTag_of_blank hx]
      exact ih hs
    · refine .head (by simp) (by simp) fun y hy => ?_
      obtain rfl : x = y := by simpa using hy
      have hne : x ≠ '=' := by simpa [hx] using hs
      simp [Zone.next, Zone.pastName, hx, hne]

theorem crosses_equals (h : AttributeName c name nameEnd)
    (heq : (nameEnd.skipWhile isAsciiBlank).rest.head? = some '=')
    (hv : value = (nameEnd.skipWhile isAsciiBlank).next.skipWhile isAsciiBlank) :
    ∃ t, Plain t ∧ Crosses .tag c t .beforeValue value := by
  obtain ⟨t, ht, p₁⟩ := crosses_name h
  have p₂ := Crosses.skipWhile (fun _ => afterName_of_blank) nameEnd
  obtain ⟨k, hk⟩ := List.head?_eq_some_iff.1 heq
  have p₃ : Crosses .afterName _ ['='] .beforeValue _ := .next hk
  have p₄ := Crosses.skipWhile (z := .beforeValue) (p := isAsciiBlank) (fun _ hx => if_pos hx)
    (nameEnd.skipWhile isAsciiBlank).next
  rw [← hv] at p₄
  exact ⟨_, ht.append ((plain_blanks _).append (.cons (by decide) (plain_blanks _))),
    p₁.trans (p₂.trans (p₃.trans p₄))⟩

/-- What a step through a tag crosses: text without `@`s and quotes, up to the end of the step or to
a quote. -/
inductive TagCrosses (src : Source) (d : Draft) (c : Cursor) : Prop where
  | leave {e : Cursor} {t : List Char} : Plain t → Crosses .tag c t .markup e →
      tagStep src d c = .leave d e → TagCrosses src d c
  | stay {e : Cursor} {t : List Char} : Plain t → Crosses .tag c t .tag e →
      tagStep src d c = .stay d e → TagCrosses src d c
  /-- Past a quote that opens no value. -/
  | mark {e : Cursor} {t r : List Char} {q : Char} : Plain t → Crosses .tag c t .tag e →
      e.rest = q :: r → q = '"' ∨ q = '\'' → tagStep src d c = .stay d e.next → TagCrosses src d c
  | opens {name nameEnd value : Cursor} {t : List Char} {q : Char} : Plain t →
      Crosses .tag c t .beforeValue value → AttributeHead c name nameEnd value q →
      TagCrosses src d c

theorem tagCrosses (src : Source) (d : Draft) (c : Cursor) : TagCrosses src d c := by
  have p₁ := Crosses.skipWhile (fun _ => inTag_of_blank) c
  have hplain := plain_blanks c.rest
  have h := strides_tagStep src d c
  generalize hy : tagStep src d c = y at h
  cases h with
  | out hx =>
    refine .leave hplain (p₁.congr (.head (by simp) (by simp) fun x hr => ?_)) hy
    rcases hx x hr with rfl | rfl <;> rfl
  | close hx =>
    have p₂ : Crosses .tag _ ['>'] .markup _ := .next hx
    exact .leave (hplain.append (.cons (by decide) (by simp [Plain]))) (p₁.trans p₂) hy
  | @mark x r hx hmark =>
    by_cases hq : x = '"' ∨ x = '\''
    · exact .mark hplain p₁ hx hq hy
    · have hnext : Zone.next .tag x = .tag := by rcases hmark with rfl | rfl | rfl | rfl <;> rfl
      have p₂ : Crosses .tag _ [x] (Zone.next .tag x) _ := .next hx
      rw [hnext] at p₂
      have hat : x ≠ '@' := by rcases hmark with rfl | rfl | rfl | rfl <;> decide
      exact .stay (hplain.append (.cons ⟨hat, not_or.1 hq⟩ (by simp [Plain]))) (p₁.trans p₂) hy
  | @bare name nameEnd h hne =>
    obtain ⟨t, ht, p₂⟩ := crosses_name h
    exact .stay ht (p₂.congr (alike_tag (by rwa [rest_skipWhile] at hne))) hy
  | @unquoted name nameEnd value h heq hv hq =>
    obtain ⟨t, ht, p₂⟩ := crosses_equals h heq hv
    refine .stay ht (p₂.congr (.head (by simp) (by simp) fun x hx => ?_)) hy
    have hblank := not_of_head_skipWhile (hv ▸ hx)
    simp [Zone.next, hblank, hq x hx]
  | @quoted name nameEnd value q h =>
    obtain ⟨t, ht, p₂⟩ := crosses_equals h.toAttributeName h.equals h.value_eq
    exact .opens ht p₂ h

end

/-! ## Passing text in a doubled template -/

/-- From `c`, in front of the doubled text `r`, to `e`, in front of the doubled text `r'`: what is
passed holds no `@` and leads from one zone to the other. -/
structure Passes (z : Zone) (c : Cursor) (r : List Char) (z' : Zone) (e : Cursor)
    (r' : List Char) : Prop where
  spans : ∃ s, '@' ∉ s ∧ r = s ++ r' ∧ Spans c s e
  rest : e.rest = doubled r'
  zone : escapable z c.last r = escapable z' e.last r'

/-- Less of the text is left when less of the template is. -/
theorem Passes.length_lt {z z' : Zone} {a b : Cursor} {r r' : List Char} (h : Passes z a r z' b r')
    (hlt : b.rest.length < a.rest.length) : r'.length < r.length := by
  obtain ⟨s, -, hr, hs⟩ := h.spans
  rw [hs.rest, List.length_append] at hlt
  rw [hr, List.length_append]
  omega

section

variable {z z' : Zone} {c e : Cursor} {r t : List Char}

theorem Crosses.passes (h : Crosses z c t z' e) (ht : '@' ∉ t) (hc : c.rest = doubled r) :
    ∃ r', Passes z c r z' e r' := by
  obtain ⟨r', rfl, hr⟩ := eq_doubled_of_append ht (hc.symm.trans h.spans.rest)
  have hz := h.alike
  rw [hr] at hz
  refine ⟨r', ⟨t, ht, rfl, h.spans⟩, hr, ?_⟩
  rw [escapable_append ht, h.spans.last, hz.escapable_eq]

theorem Plain.at_notMem (ht : Plain t) : '@' ∉ t := fun h => (ht _ h).1 rfl

theorem Crosses.passes_quote {q : Char} {k : List Char} (h : Crosses z c t z' e) (ht : Plain t)
    (hr : e.rest = q :: k) (hq : q = '"' ∨ q = '\'') (hc : c.rest = doubled r) :
    ∃ r', Passes z c r (z'.next q) e.next r' := by
  have hat : '@' ∉ t ++ [q] := by
    rw [List.mem_append, not_or, List.mem_singleton]
    refine ⟨ht.at_notMem, ?_⟩
    rcases hq with rfl | rfl <;> decide
  exact (h.trans (.next hr)).passes hat hc

/-- A step through a tag passes text up to markup, up to more of the tag, or up to a value. -/
theorem passes_tagStep (src : Source) (d : Draft) (hc : c.rest = doubled r) :
    (∃ e r', Passes .tag c r .markup e r' ∧ tagStep src d c = .leave d e) ∨
    (∃ e r', Passes .tag c r .tag e r' ∧ tagStep src d c = .stay d e) ∨
    ∃ name nameEnd value q r', AttributeHead c name nameEnd value q ∧
      Passes .tag c r (.value q) value.next r' := by
  cases tagCrosses src d c with
  | leave ht p hstep =>
    obtain ⟨r', hp⟩ := p.passes ht.at_notMem hc
    exact .inl ⟨_, r', hp, hstep⟩
  | stay ht p hstep =>
    obtain ⟨r', hp⟩ := p.passes ht.at_notMem hc
    exact .inr (.inl ⟨_, r', hp, hstep⟩)
  | @mark e t k q ht p hr hq hstep =>
    obtain ⟨r', hp⟩ := p.passes_quote ht hr hq hc
    have hnext : Zone.next .tag q = .tag := by rcases hq with rfl | rfl <;> rfl
    rw [hnext] at hp
    exact .inr (.inl ⟨_, r', hp, hstep⟩)
  | @opens name nameEnd value t q ht p ha =>
    obtain ⟨k, hk⟩ := ha.rest_value
    obtain ⟨r', hp⟩ := p.passes_quote ht hk ha.quote_eq hc
    have hnext : Zone.next .beforeValue q = .value q := by
      rcases ha.quote_eq with rfl | rfl <;> rfl
    rw [hnext] at hp
    exact .inr (.inr ⟨_, _, _, _, r', ha, hp⟩)

end

end Sigil.Template
