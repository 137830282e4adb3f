import Sigil.Proofs.Template.Draft
import Sigil.Proofs.Template.Crossing

/-!
# Where the scan stands

`Stands src z d c`: the scan comes to the place `c` in the zone `z`, with the draft `d`. Over a text
without `@`s and quotes, and the quote behind it, the scan goes from zone to zone as
`Zone.next` says (`stands_walk`): text of markup may open a tag, and a tag in it may open a value at
the quote.
-/

namespace Sigil.Template

open Text Cursor

/-! ## Values -/

theorem ValueDraft.escapes_express (v : ValueDraft) (c e : Cursor) (x : Expr) :
    (v.express c e x).escapes = v.escapes := escapes_close v c

theorem ValueDraft.faults_express (v : ValueDraft) (c e : Cursor) (x : Expr) :
    (v.express c e x).faults = v.faults := faults_close v c

/-- The reading of a value goes over the text `s` without an escape and without a fault. -/
structure ReadsOver (quote : Char) (v : ValueDraft) (c : Cursor) (s : List Char) (w : ValueDraft)
    (e : Cursor) : Prop where
  spans : Spans c s e
  read : readValue quote v c = readValue quote w e
  faults : w.faults = v.faults
  escapes : w.escapes = v.escapes

namespace ReadsOver

variable {quote : Char} {u v w : ValueDraft} {c e t : Cursor} {s s' k : List Char}

theorem refl (quote : Char) (v : ValueDraft) (c : Cursor) : ReadsOver quote v c [] v c :=
  ⟨Spans.refl c, rfl, rfl, rfl⟩

theorem trans (h : ReadsOver quote v c s w e) (h' : ReadsOver quote w e s' u t) :
    ReadsOver quote v c (s ++ s') u t :=
  ⟨h.spans.trans h'.spans, h.read.trans h'.read, h'.faults.trans h.faults,
    h'.escapes.trans h.escapes⟩

theorem text (quote : Char) (v : ValueDraft) (hc : c.rest = s ++ k)
    (hs : ∀ x ∈ s, x ≠ '@' ∧ x ≠ quote) :
    ∃ w e, ReadsOver quote v c s w e ∧ w.isDynamic = v.isDynamic := by
  induction s generalizing v c with
  | nil => exact ⟨v, c, refl quote v c, rfl⟩
  | cons x s ih =>
    rw [List.forall_mem_cons] at hs
    have hr : c.rest = x :: (s ++ k) := hc
    have hn : c.next.rest = s ++ k := by simp [hr]
    have hfirst :
        ReadsOver quote v c [x] (if isAsciiBlank x then v.close c else v.push c x) c.next :=
      ⟨Spans.next hr, readValue_other v hr hs.1.2 hs.1.1, by split <;> simp, by split <;> simp⟩
    obtain ⟨w, e, hover, hdyn⟩ := ih _ hn hs.2
    refine ⟨w, e, hfirst.trans hover, hdyn.trans ?_⟩
    split <;> simp

end ReadsOver

/-- The scan comes to a place in a quoted value that has no escapes and no faults so far. -/
structure InValue (src : Source) (quote : Char) (d : Draft) (v : ValueDraft) (c : Cursor) :
    Prop where
  head : ∃ before name nameEnd value, VisitsTag src d before ∧
    AttributeHead before name nameEnd value quote ∧
    readValue quote (.start value.next) value.next = readValue quote v c ∧
    before.offset < c.offset
  faults : v.faults = []
  escapes : v.escapes = []

theorem InValue.over {src : Source} {quote : Char} {d : Draft} {v w : ValueDraft} {c e : Cursor}
    {s : List Char} (h : InValue src quote d v c) (hover : ReadsOver quote v c s w e) :
    InValue src quote d w e := by
  obtain ⟨before, name, nameEnd, value, hvisits, hhead, hreads, hlt⟩ := h.head
  refine ⟨⟨before, name, nameEnd, value, hvisits, hhead, hreads.trans hover.read, ?_⟩,
    hover.faults.trans h.faults, hover.escapes.trans h.escapes⟩
  rw [hover.spans.offset]
  omega

theorem inValue_start {src : Source} {quote : Char} {d : Draft} {before name nameEnd value : Cursor}
    {s : List Char} (h : VisitsTag src d before) (ha : AttributeHead before name nameEnd value quote)
    (hs : Spans before s value.next) (hne : s ≠ []) :
    InValue src quote d (.start value.next) value.next := by
  refine ⟨⟨before, name, nameEnd, value, h, ha, rfl, ?_⟩, rfl, rfl⟩
  have := byteLength_pos hne
  rw [hs.offset]
  omega

/-! ## Standing in a zone -/

/-- The scan comes to a place of a zone. Names and what is in front of a value belong to a step of
the scan and are no places that it comes to. -/
def Stands (src : Source) (z : Zone) (d : Draft) (c : Cursor) : Prop :=
  match z with
  | .markup => Visits src d c
  | .tag => VisitsTag src d c
  | .value quote => quote = '"' ∧ ∃ v, InValue src quote d v c ∧ v.isDynamic = false
  | _ => False

/-! ## Over a text and a quote -/

/-- Plain text that is crossed in front of a quote is the start of the text there. -/
theorem Plain.split {t s r k : List Char} (ht : Plain t) (h : t ++ r = s ++ '"' :: k) :
    ∃ s', s = t ++ s' ∧ r = s' ++ '"' :: k := by
  rcases List.append_eq_append_iff.1 h with ⟨s', hs, hr⟩ | ⟨u, hu, hk⟩
  · exact ⟨s', hs, hr⟩
  · cases u with
    | nil => exact ⟨[], by simp [hu], by simpa using hk.symm⟩
    | cons x u =>
      obtain ⟨rfl, -⟩ := List.cons.inj hk
      exact absurd rfl (ht '"' (by simp [hu])).2.1

theorem Plain.quote_eq {s r k : List Char} {q : Char} (hs : Plain s) (hq : q = '"' ∨ q = '\'')
    (h : q :: r = s ++ '"' :: k) : s = [] ∧ q = '"' := by
  cases s with
  | nil => exact ⟨rfl, (List.cons.inj h).1⟩
  | cons x s =>
    obtain ⟨rfl, -⟩ := List.cons.inj h
    exact absurd hq (not_or.2 (hs q (by simp)).2)

section

variable {src : Source} {d : Draft} {k s : List Char} {c e : Cursor} {z z' : Zone}

/-- From a place in a zone, the scan comes to behind the text and the quote, in the zone that the
text leads to. -/
def Reaches (src : Source) (d : Draft) (z : Zone) (c : Cursor) (s : List Char) : Prop :=
  ∃ e, Spans c (s ++ ['"']) e ∧ Stands src (z.walk (s ++ ['"'])) d e

/-- The scan reaches what is behind the quote from all places with less text in front of it. -/
def ReachesBelow (src : Source) (d : Draft) (k : List Char) (n : Nat) : Prop :=
  ∀ z c s, s.length < n → Plain s → c.rest = s ++ '"' :: k → (z = .markup ∨ z = .tag) →
    Stands src z d c → Reaches src d z c s

/-- The quote that is reached from behind text that is crossed is reached from in front of it. -/
theorem Crosses.reaches {t : List Char} (h : Crosses z c t z' e) (ht : Plain t) (hs : Plain s)
    (hc : c.rest = s ++ '"' :: k)
    (hlead : ∀ s', s = t ++ s' → Plain s' → e.rest = s' ++ '"' :: k → Reaches src d z' e s') :
    Reaches src d z c s := by
  obtain ⟨s', rfl, hr⟩ := ht.split (h.spans.rest.symm.trans hc)
  have hplain : Plain s' := fun x hx => hs x (List.mem_append_right t hx)
  obtain ⟨u, hu, hstands⟩ := hlead s' rfl hplain hr
  have hz := h.alike
  rw [hr] at hz
  refine ⟨u, ?_, ?_⟩
  · rw [List.append_assoc]
    exact h.spans.trans hu
  · rwa [List.append_assoc, Zone.walk_append, hz.walk_quote]

theorem visits_other {x : Char} {r : List Char} (hd : Visits src d c) (hc : c.rest = x :: r)
    (hx : x ≠ '@') (hr : x = '<' → ∀ y ∈ r.head?, y.isAlpha = false) : Visits src d c.next := by
  have := hd.step (hc ▸ List.cons_ne_nil x r)
  rwa [step_other src d hc hx hr] at this

theorem reaches_markup (hs : Plain s) (hc : c.rest = s ++ '"' :: k)
    (ih : ReachesBelow src d k s.length) (hd : Visits src d c) : Reaches src d .markup c s := by
  cases s with
  | nil => exact ⟨c.next, Spans.next hc, visits_other hd hc (by decide) (by simp)⟩
  | cons x s =>
    have hx := hs x (by simp)
    have hr : c.rest = x :: (s ++ '"' :: k) := hc
    by_cases hopen : x = '<' ∧ ∃ y ∈ (s ++ '"' :: k).head?, y.isAlpha = true
    · obtain ⟨rfl, y, hy, halpha⟩ := hopen
      obtain ⟨r, hyr⟩ := List.head?_eq_some_iff.1 hy
      rw [hyr] at hr
      obtain ⟨t, ht, p⟩ := crosses_tagName hr halpha
      refine p.reaches ht hs hc fun s' hs' hplain he => ?_
      have hlt : s'.length < ('<' :: s).length := by
        rw [hs', List.length_append, List.length_cons]
        omega
      exact ih .tag _ s' hlt hplain he (.inr rfl) (.enter hd hr halpha)
    · have hletter : x = '<' → ∀ y ∈ (s ++ '"' :: k).head?, y.isAlpha = false := by
        intro hlt y hy
        by_contra h
        exact hopen ⟨hlt, y, hy, Bool.of_not_eq_false h⟩
      have hv : Visits src d c.next := visits_other hd hr hx.1 hletter
      refine (crosses_other hr hletter).reaches (.cons hx (by simp [Plain])) hs hc
        fun s' hs' hplain he => ?_
      have hlt : s'.length < (x :: s).length := by simp [hs']
      exact ih .markup _ s' hlt hplain he (.inl rfl) hv

theorem reaches_tag (hs : Plain s) (hc : c.rest = s ++ '"' :: k)
    (ih : ReachesBelow src d k s.length) (hd : VisitsTag src d c) : Reaches src d .tag c s := by
  cases tagCrosses src d c with
  | @leave e t ht p hstep =>
    have hv : Visits src d e := by
      have := visits_of_visitsTag hd
      rwa [attributes_leave hstep] at this
    refine p.reaches ht hs hc fun s' hs' hplain he => reaches_markup hplain he ?_ hv
    have hle : s'.length ≤ s.length := by simp [hs']
    exact fun z c s'' hlt => ih z c s'' (Nat.lt_of_lt_of_le hlt hle)
  | @stay e t ht p hstep =>
    refine p.reaches ht hs hc fun s' hs' hplain he => ?_
    have hlt : s'.length < s.length := by
      have := (left_tagStep src d c).2 hstep
      rw [hc, he, hs'] at this
      rw [hs']
      simp only [List.length_append] at *
      omega
    exact ih .tag e s' hlt hplain he (.inr rfl) (hd.stay hstep)
  | @mark e t r q ht p hr hq hstep =>
    refine p.reaches ht hs hc fun s' _ hplain he => ?_
    obtain ⟨rfl, rfl⟩ := hplain.quote_eq hq (hr.symm.trans he)
    have hv : VisitsTag src d e.next := hd.stay hstep
    exact ⟨e.next, Spans.next hr, hv⟩
  | @opens name nameEnd value t q ht p ha =>
    refine p.reaches ht hs hc fun s' hs' hplain he => ?_
    obtain ⟨r, hr⟩ := ha.rest_value
    obtain ⟨rfl, rfl⟩ := hplain.quote_eq ha.quote_eq (hr.symm.trans he)
    have hspans : Spans c (t ++ ['"']) value.next := p.spans.trans (Spans.next hr)
    exact ⟨value.next, Spans.next hr, rfl, _, inValue_start hd ha hspans (by simp), rfl⟩

/-- Over a text without `@`s and quotes, and the quote behind it, the scan goes from zone to
zone. -/
theorem stands_walk (hs : Plain s) (hc : c.rest = s ++ '"' :: k) (hz : z = .markup ∨ z = .tag)
    (h : Stands src z d c) : Reaches src d z c s := by
  generalize hn : s.length = n
  induction n using Nat.strongRecOn generalizing s c z with
  | ind n ih =>
    have below : ReachesBelow src d k s.length := fun z c s' hlt hs' hc' hz h =>
      ih s'.length (hn ▸ hlt) hs' hc' hz h rfl
    rcases hz with rfl | rfl
    · exact reaches_markup hs hc below h
    · exact reaches_tag hs hc below h

end

end Sigil.Template
