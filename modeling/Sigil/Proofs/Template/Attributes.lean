import Sigil.Proofs.Template.Parts
import Sigil.Proofs.Template.Written

/-!
# Attributes of a start tag

The scan comes to the items of a start tag on a footing. An item that leads on is passed to the next
footing, and adds its attribute (`leadsOn_of_next`). One that does not lead on leaves a fault, or
attributes that are not those of the items (`not_reads_of_next`). So the attributes of a tag are
written exactly if each of its items leads on (`attributes_parse_iff`).
-/

namespace Sigil.Template

open Text Cursor

/-! ## Items -/

/-- The scan comes to a place in front of an item. -/
def StandsOn (src : Source) (f : Footing) (d : Draft) (c : Cursor) : Prop :=
  match f with
  | .tag => VisitsTag src d c
  | .markup => Visits src d c
  | .value dynamic => ∃ v, InValue src '"' d v c ∧ v.isDynamic = dynamic

theorem standsOn_footing {src : Source} {z : Zone} {d : Draft} {c : Cursor}
    (h : Stands src z d c) : StandsOn src z.footing d c := by
  cases z with
  | markup | tag => exact h
  | value quote =>
    obtain ⟨rfl, v, hv, hdyn⟩ := h
    exact ⟨v, hv, hdyn⟩
  | opening | tagName | name | afterName | beforeValue => exact h.elim

/-- From a place on the template has no faults, and its attributes are those of the items. -/
structure ReadsItems (src : Source) (d : Draft) (c : Cursor) (items : List Item) : Prop where
  faults : (scanned src).faults = []
  attributes :
    attributesOf (scanned src).body = attributesOf d.body ++ itemAttributes c.offset items

theorem le_of_mem_itemAttributes {n : Nat} {items : List Item} :
    ∀ a ∈ itemAttributes n items, n ≤ a.2 := by
  induction items generalizing n with
  | nil => simp [itemAttributes]
  | cons i is ih =>
    intro a ha
    rcases List.mem_append.1 ha with ha | ha
    · cases i with
      | dynamic gap name value =>
        obtain rfl : a = (String.ofList name.chars, n) := by simpa [Item.attribute?] using ha
        exact Nat.le_refl n
      | _ => simp [Item.attribute?] at ha
    · have := ih a ha
      omega

/-- An item starts with a blank, and what is behind its blanks is no `=`. -/
theorem Item.chars_eq (i : Item) : ∃ (gap : Gap) (x : Char) (r : List Char),
    i.chars = gap.chars ++ x :: r ∧ isAsciiBlank x = false ∧ x ≠ '=' := by
  have hname : ∀ (name : AttributeWord), ∃ x r, name.chars = x :: r ∧ isAsciiBlank x = false ∧
      x ≠ '=' := by
    intro name
    obtain ⟨x, r, hx⟩ := List.exists_cons_of_ne_nil name.ne_nil
    have hne := ne_of_endsAttributeName (name.inside x (by simp [hx]))
    exact ⟨x, r, hx, hne.1, hne.2.1⟩
  cases i with
  | bare gap name =>
    obtain ⟨x, r, hx, hne⟩ := hname name
    exact ⟨gap, x, r, by rw [chars, hx], hne⟩
  | plain gap name value | dynamic gap name value =>
    obtain ⟨x, r, hx, hne⟩ := hname name
    exact ⟨gap, x, _, by rw [chars, opening, hx]; simp only [List.append_assoc]; rfl, hne⟩
  | directive gap word => exact ⟨gap, '@', _, rfl, by decide⟩
  | comment gap text => exact ⟨gap, '@', _, rfl, by decide⟩

theorem head?_itemsText (items : List Item) :
    ∀ x ∈ (itemsText items).head?, isAsciiBlank x = true ∨ x = '>' := by
  cases items with
  | nil => simp [itemsText]
  | cons i is =>
    obtain ⟨gap, x, r, hi, -⟩ := i.chars_eq
    obtain ⟨y, u, hy⟩ := List.exists_cons_of_ne_nil gap.ne_nil
    intro z hz
    rw [itemsText, List.flatMap_cons, hi, hy] at hz
    obtain rfl : y = z := by simpa using hz
    exact .inl (gap.blanks y (by simp [hy]))

theorem head?_behind_blanks {c : Cursor} {items : List Item} (hc : c.rest = itemsText items) :
    (c.skipWhile isAsciiBlank).rest.head? ≠ some '=' := by
  rw [rest_skipWhile, hc]
  cases items with
  | nil => decide
  | cons i is =>
    obtain ⟨gap, x, r, hi, hblank, hne⟩ := i.chars_eq
    rw [itemsText, List.flatMap_cons, hi, List.append_assoc, List.append_assoc,
      List.dropWhile_append_of_pos gap.blanks]
    simp [hblank, hne]

theorem endsAttributeName_itemsText (items : List Item) :
    ∀ x ∈ (itemsText items).head?, endsAttributeName x = true := by
  intro x hx
  rcases head?_itemsText items x hx with h | rfl
  · simp [endsAttributeName, h]
  · decide

/-! ## Steps over items -/

theorem Gap.plain (gap : Gap) : ∀ x ∈ gap.chars, x ≠ '@' ∧ x ≠ '<' ∧ x ≠ '"' := by
  intro x hx
  rcases eq_of_isAsciiBlank (gap.blanks x hx) with rfl | rfl | rfl | rfl | rfl <;> decide

theorem AttributeWord.plain (name : AttributeWord) :
    ∀ x ∈ name.chars, x ≠ '@' ∧ x ≠ '<' ∧ x ≠ '"' := by
  intro x hx
  have h := ne_of_endsAttributeName (name.inside x hx)
  simp [h]

/-- The opening of a quoted value, up to its quote. -/
theorem opening_plain (gap : Gap) (name : AttributeWord) :
    ∀ x ∈ gap.chars ++ name.chars ++ ['='], x ≠ '@' ∧ x ≠ '<' ∧ x ≠ '"' :=
  List.forall_mem_append.2 ⟨List.forall_mem_append.2 ⟨gap.plain, name.plain⟩, by simp⟩

theorem opening_append (gap : Gap) (name : AttributeWord) (k : List Char) :
    Item.opening gap name ++ k = gap.chars ++ name.chars ++ ['='] ++ '"' :: k := by
  simp [Item.opening]

theorem quoted_append (gap : Gap) (name : AttributeWord) (s k : List Char) :
    Item.opening gap name ++ (s ++ ['"']) ++ k = Item.opening gap name ++ (s ++ '"' :: k) := by
  simp

/-- The draft and the place behind an item, on the footing that it leads to. -/
def LeadsOn (src : Source) (f : Footing) (d : Draft) (c : Cursor) (i : Item) : Prop :=
  ∃ d' e, Spans c i.chars e ∧ StandsOn src f d' e ∧ d'.faults = d.faults ∧
    attributesOf d'.body = attributesOf d.body ++ (i.attribute? c.offset).toList

section

variable {src : Source} {f : Footing} {d : Draft} {c : Cursor} {k : List Char}

/-- Text without markup characters and double quotes does not change the footing in markup and in
values. -/
theorem StandsOn.pass {s : List Char} (h : StandsOn src f d c) (hf : f ≠ .tag)
    (hc : c.rest = s ++ k) (hs : ∀ x ∈ s, x ≠ '@' ∧ x ≠ '<' ∧ x ≠ '"') :
    ∃ e, Spans c s e ∧ StandsOn src f d e := by
  cases f with
  | tag => exact absurd rfl hf
  | markup =>
    obtain ⟨e, hse, he⟩ := visits_pass h hc fun x hx => ⟨(hs x hx).1, (hs x hx).2.1⟩
    exact ⟨e, hse, he⟩
  | value dynamic =>
    obtain ⟨v, hv, hdyn⟩ := h
    obtain ⟨w, e, hover, hw⟩ := ReadsOver.text '"' v hc fun x hx => ⟨(hs x hx).1, (hs x hx).2.2⟩
    exact ⟨e, hover.spans, w, hv.over hover, hw.trans hdyn⟩

theorem leadsOn_bare (gap : Gap) (name : AttributeWord) (is : List Item)
    (h : StandsOn src f d c) (hc : c.rest = gap.chars ++ name.chars ++ itemsText is) :
    LeadsOn src f d c (.bare gap name) := by
  have hnone : attributesOf d.body = attributesOf d.body ++ [] := (List.append_nil _).symm
  by_cases hf : f = .tag
  · subst hf
    obtain ⟨start, nameEnd, hname, hstart, hend⟩ :=
      attributeName_of_rest name gap.blanks hc (endsAttributeName_itemsText is)
    have hspans := hstart.trans hend
    have hrest := hspans.behind hc
    have htag : VisitsTag src d c := h
    have hend : VisitsTag src d nameEnd :=
      htag.stay (tagStep_bare hname (head?_behind_blanks hrest))
    exact ⟨d, nameEnd, hspans, hend, rfl, hnone⟩
  · obtain ⟨e, hse, he⟩ := h.pass hf hc
      (List.forall_mem_append.2 ⟨gap.plain, name.plain⟩)
    exact ⟨d, e, hse, he, rfl, hnone⟩

/-- The opening of a quoted value, up to its quote, outside the tag. -/
theorem StandsOn.opening (gap : Gap) (name : AttributeWord) (h : StandsOn src f d c) (hf : f ≠ .tag)
    (hc : c.rest = Item.opening gap name ++ k) :
    ∃ e, Spans c (gap.chars ++ name.chars ++ ['=']) e ∧ e.rest = '"' :: k ∧ StandsOn src f d e := by
  have hr := hc.trans (opening_append gap name k)
  obtain ⟨e, hse, he⟩ := h.pass hf hr (opening_plain gap name)
  exact ⟨e, hse, hse.behind hr, he⟩

/-- In markup the opening of a quoted value is text. -/
theorem visits_opening (gap : Gap) (name : AttributeWord) (h : Visits src d c)
    (hc : c.rest = Item.opening gap name ++ k) :
    ∃ e, Spans c (Item.opening gap name) e ∧ Visits src d e := by
  have hm : StandsOn src .markup d c := h
  obtain ⟨e, hse, hquote, he⟩ := hm.opening gap name (by simp) hc
  rw [← List.append_nil (Item.opening gap name), opening_append]
  exact ⟨e.next, hse.trans (Spans.next hquote), visits_other he hquote (by decide) (by simp)⟩

/-- A value without a directive ends at the opening of a quoted value. -/
theorem visitsTag_opening (gap : Gap) (name : AttributeWord) (h : StandsOn src (.value false) d c)
    (hc : c.rest = Item.opening gap name ++ k) :
    ∃ e, Spans c (Item.opening gap name) e ∧ VisitsTag src d e := by
  obtain ⟨e, hse, hquote, v, hv, hdyn⟩ := h.opening gap name (by simp) hc
  rw [← List.append_nil (Item.opening gap name), opening_append]
  exact ⟨e.next, hse.trans (Spans.next hquote), hv.visitsTag (.refl ..) hdyn hquote⟩

theorem leadsOn_plain {f' : Footing} (gap : Gap) (name : AttributeWord) (value : PlainText)
    (h : StandsOn src f d c) (hc : c.rest = (Item.plain gap name value).chars ++ k)
    (hf : (Item.plain gap name value).next f = some f') :
    LeadsOn src f' d c (.plain gap name value) := by
  have hnone : attributesOf d.body = attributesOf d.body ++ [] := (List.append_nil _).symm
  have hr := hc.trans (quoted_append gap name value.chars k)
  -- Outside the tag the quotes open and close what the text in front of them says.
  have walks : ∀ {z e}, Spans c (Item.opening gap name) e → (z = .markup ∨ z = .tag) →
      Stands src z d e → f' = (z.walk (value.chars ++ ['"'])).footing →
      LeadsOn src f' d c (.plain gap name value) := by
    rintro z e hse hz he rfl
    have hrest := hse.behind hr
    obtain ⟨t, hst, ht⟩ := stands_walk value.plain hrest hz he
    exact ⟨d, t, hse.trans hst, standsOn_footing ht, rfl, hnone⟩
  cases f with
  | tag =>
    obtain ⟨start, nameEnd, v, hhead, -, hse, -⟩ := attributeHead_of_rest gap name hr
    have hv := inValue_start h hhead hse (by simp [Item.opening])
    have hrest := hse.behind hr
    obtain ⟨w, e, hover, hdyn⟩ := ReadsOver.text '"' (.start v.next) hrest fun x hx =>
      ⟨(value.plain x hx).1, (value.plain x hx).2.1⟩
    have hquote := hover.spans.behind hrest
    cases hf
    exact ⟨d, e.next, hse.trans (hover.spans.trans (Spans.next hquote)),
      hv.visitsTag hover hdyn hquote, rfl, hnone⟩
  | markup =>
    obtain ⟨e, hse, he⟩ := visits_opening gap name h hr
    exact walks hse (.inl rfl) he (Option.some.inj hf).symm
  | value dynamic =>
    cases dynamic with
    | true => cases hf
    | false =>
      obtain ⟨e, hse, he⟩ := visitsTag_opening gap name h hr
      exact walks hse (.inr rfl) he (Option.some.inj hf).symm

theorem leadsOn_dynamic (gap : Gap) (name : AttributeWord) (value : DynamicValue)
    (h : VisitsTag src d c) (hc : c.rest = (Item.dynamic gap name value).chars ++ k) :
    LeadsOn src .tag d c (.dynamic gap name value) := by
  have hr := hc.trans (quoted_append gap name value.chars k)
  obtain ⟨start, nameEnd, v, hhead, hname, hse, hlast⟩ := attributeHead_of_rest gap name hr
  have hrest := hse.behind hr
  obtain ⟨w, e, hover, hdyn⟩ := value.readsOver (.start v.next)
    (show v.next.afterWord = false by rw [afterWord, hlast]; rfl) hrest
  have hquote := hover.spans.behind hrest
  have hread := hover.read.trans (readValue_close w hquote)
  have hstep := hhead.tagStep_eq src d
  rw [quotedStep_closed hread] at hstep
  have hclosed : (w.close e).isDynamic = true := by rw [ValueDraft.isDynamic_close, hdyn]
  refine ⟨_, e.next, hse.trans (hover.spans.trans (Spans.next hquote)), h.stay hstep, ?_, ?_⟩
  · rw [faults_attribute, ValueDraft.faults_close, hover.faults]
    exact List.append_nil _
  · rw [attributesOf_attribute hclosed, hname]
    rfl

theorem Gap.afterWord (gap : Gap) {e : Cursor} (hse : Spans c gap.chars e) :
    e.afterWord = false := by
  obtain ⟨u, x, hx⟩ := (List.eq_nil_or_concat gap.chars).resolve_left gap.ne_nil
  have hmem : x ∈ gap.chars := by simp [hx]
  rw [Cursor.afterWord, hse.last, hx, List.concat_eq_append, List.getLast?_concat]
  rcases eq_of_isAsciiBlank (gap.blanks x hmem) with rfl | rfl | rfl | rfl | rfl <;> rfl

/-- In front of the `@` of an item the scan is in markup, unless it is in a value. -/
theorem StandsOn.at_ (gap : Gap) {r : List Char} (h : StandsOn src f d c)
    (hf : f = .tag ∨ f = .markup) (hc : c.rest = gap.chars ++ '@' :: r) :
    ∃ e, Spans c gap.chars e ∧ Visits src d e := by
  rcases hf with rfl | rfl
  · exact visits_of_at h gap.blanks hc
  · exact visits_pass h hc fun x hx => ⟨(gap.plain x hx).1, (gap.plain x hx).2.1⟩

theorem leadsOn_comment (gap : Gap) (text : CommentText) (h : StandsOn src f d c)
    (hf : f = .tag ∨ f = .markup) (hc : c.rest = (Item.comment gap text).chars ++ k) :
    LeadsOn src .markup d c (.comment gap text) := by
  have hr : c.rest = gap.chars ++ '@' :: '*' :: (text.chars ++ commentEnd ++ k) := by
    rw [hc, Item.chars]
    simp
  obtain ⟨e, hse, he⟩ := h.at_ gap hf hr
  have hrest := hse.behind hr
  obtain ⟨t, hst, ht⟩ := text.visits he (gap.afterWord hse) hrest
  refine ⟨_, t, hse.trans hst, ht, rfl, ?_⟩
  exact (attributesOf_flush d e).trans (List.append_nil _).symm

theorem leadsOn_directive {f' : Footing} (gap : Gap) (word : DirectiveWord) (h : StandsOn src f d c)
    (hc : c.rest = (Item.directive gap word).chars ++ k)
    (hf : (Item.directive gap word).next f = some f') :
    LeadsOn src f' d c (.directive gap word) := by
  have hr : c.rest = gap.chars ++ (word.written ++ k) := by
    rw [hc, Item.chars, List.append_assoc]
  have outside : f = .tag ∨ f = .markup → LeadsOn src .markup d c (.directive gap word) := by
    intro hf
    obtain ⟨e, hse, he⟩ := h.at_ gap hf hr
    have hrest := hse.behind hr
    obtain ⟨x, t, hst, ht⟩ := word.visits he (gap.afterWord hse) hrest
    refine ⟨_, t, hse.trans hst, ht, rfl, ?_⟩
    exact (attributesOf_write d src e t x).trans (List.append_nil _).symm
  cases f with
  | tag =>
    cases hf
    exact outside (.inl rfl)
  | markup =>
    cases hf
    exact outside (.inr rfl)
  | value dynamic =>
    cases hf
    obtain ⟨v, hv, -⟩ := h
    obtain ⟨w, e, hgap, -⟩ := ReadsOver.text '"' v hr fun x hx =>
      ⟨(gap.plain x hx).1, (gap.plain x hx).2.2⟩
    have hrest := hgap.spans.behind hr
    obtain ⟨u, t, hword, hdyn⟩ := word.readsOver w (gap.afterWord hgap.spans) hrest
    have hover := hgap.trans hword
    exact ⟨d, t, hover.spans, ⟨u, hv.over hover, hdyn⟩, rfl, (List.append_nil _).symm⟩

theorem leadsOn_of_next {f' : Footing} {i : Item} {is : List Item} (h : StandsOn src f d c)
    (hc : c.rest = i.chars ++ itemsText is) (hf : i.next f = some f') : LeadsOn src f' d c i := by
  cases i with
  | bare gap name =>
    cases hf
    exact leadsOn_bare gap name is h hc
  | plain gap name value => exact leadsOn_plain gap name value h hc hf
  | dynamic gap name value =>
    obtain ⟨rfl, hf'⟩ := Option.ite_none_right_eq_some.1 hf
    cases hf'
    exact leadsOn_dynamic gap name value h hc
  | directive gap word => exact leadsOn_directive gap word h hc hf
  | comment gap text =>
    cases f with
    | tag =>
      cases hf
      exact leadsOn_comment gap text h (.inl rfl) hc
    | markup =>
      cases hf
      exact leadsOn_comment gap text h (.inr rfl) hc
    | value => cases hf

/-! ## Items that are not read -/

/-- A value that already has a directive and ends at the opening of an item is an attribute that no
item stands for. -/
theorem not_reads_closing {gap : Gap} {name : AttributeWord} {i : Item} {is : List Item}
    (h : StandsOn src (.value true) d c) (hc : c.rest = Item.opening gap name ++ k) :
    ¬ ReadsItems src d c (i :: is) := by
  intro hreads
  obtain ⟨v, hv, hdyn⟩ := h
  have hr := hc.trans (opening_append gap name k)
  obtain ⟨w, e, hover, hw⟩ := ReadsOver.text '"' v hr fun x hx =>
    ⟨(opening_plain gap name x hx).1, (opening_plain gap name x hx).2.2⟩
  have hquote := hover.spans.behind hr
  obtain ⟨a, more, hlt, hbody⟩ := hv.writes hover (hw.trans hdyn) hquote
  have hitems := List.append_cancel_left (hbody.symm.trans hreads.attributes)
  have := le_of_mem_itemAttributes a (hitems ▸ List.mem_cons_self)
  omega

/-- What is written from a later place on is not the attribute of the item here. -/
theorem not_reads_dynamic {gap : Gap} {name : AttributeWord} {value : DynamicValue} {e : Cursor}
    {s : List Char} {is : List Item} (hl : Later src d e) (hs : Spans c s e) (hne : s ≠ []) :
    ¬ ReadsItems src d c (.dynamic gap name value :: is) := by
  intro hreads
  obtain ⟨more, hmore, hlater⟩ := hl.attributes
  have hitems := List.append_cancel_left (hmore.symm.trans hreads.attributes)
  have := hlater (String.ofList name.chars, c.offset) (by rw [hitems]; exact List.mem_cons_self)
  have hoffset := hs.offset
  have := byteLength_pos hne
  omega

/-- A comment in a value is a directive with a fault. -/
theorem not_reads_comment {gap : Gap} {text : CommentText} {is : List Item} {dynamic : Bool}
    (h : StandsOn src (.value dynamic) d c) (hc : c.rest = (Item.comment gap text).chars ++ k) :
    ¬ ReadsItems src d c (.comment gap text :: is) := by
  intro hreads
  obtain ⟨v, hv, -⟩ := h
  have hr : c.rest = gap.chars ++ '@' :: '*' :: (text.chars ++ commentEnd ++ k) := by
    rw [hc, Item.chars]
    simp
  obtain ⟨w, e, hover, -⟩ := ReadsOver.text '"' v hr fun x hx =>
    ⟨(gap.plain x hx).1, (gap.plain x hx).2.2⟩
  have hrest := hover.spans.behind hr
  have hnext : e.next.rest = '*' :: (text.chars ++ commentEnd ++ k) := by simp [hrest]
  have hfault : directive e.offset e.next = .error ⟨.emptyExpression, e.offset⟩ := by
    unfold directive
    rw [hnext]
    rfl
  have hread : readValue '"' w e =
      readValue '"' ((w.fault ⟨.emptyExpression, e.offset⟩).push e '@') e.next :=
    readValue_fault w hrest (by decide) (by simp) (gap.afterWord hover.spans) hfault
  exact (hv.over hover).faulty hread (f := ⟨.emptyExpression, e.offset⟩)
    (by simp [ValueDraft.fault]) hreads.faults

theorem not_reads_of_next {i : Item} {is : List Item} (h : StandsOn src f d c)
    (hc : c.rest = i.chars ++ k) (hf : i.next f = none) : ¬ ReadsItems src d c (i :: is) := by
  cases i with
  | bare | directive => cases f <;> cases hf
  | plain gap name value =>
    have hr := hc.trans (quoted_append gap name value.chars k)
    cases f with
    | tag | markup => cases hf
    | value dynamic =>
      cases dynamic with
      | false => cases hf
      | true => exact not_reads_closing h hr
  | comment gap text =>
    cases f with
    | tag | markup => cases hf
    | value dynamic => exact not_reads_comment h hc
  | dynamic gap name value =>
    have hr := hc.trans (quoted_append gap name value.chars k)
    have hne : Item.opening gap name ≠ [] := by simp [Item.opening]
    cases f with
    | tag => cases hf
    | markup =>
      obtain ⟨e, hse, he⟩ := visits_opening gap name h hr
      exact not_reads_dynamic (later_of_visits he) hse hne
    | value dynamic =>
      cases dynamic with
      | false =>
        obtain ⟨e, hse, he⟩ := visitsTag_opening gap name h hr
        exact not_reads_dynamic (later_of_visitsTag he) hse hne
      | true => exact not_reads_closing h hr

/-! ## Start tags -/

/-- At the end of the tag nothing more is written. -/
theorem readsItems_nil (h : StandsOn src f d c) (hd : d.faults = []) (hc : c.rest = ['>']) :
    ReadsItems src d c [] := by
  have hend : c.next.rest = [] := by simp [hc]
  have finish : Visits src d c.next → ReadsItems src d c [] := by
    intro hv
    have hscan := (scanned_of_visits hv).trans (scan_end hend)
    refine ⟨hscan ▸ hd, ?_⟩
    rw [hscan, attributesOf_flush]
    exact (List.append_nil _).symm
  cases f with
  | tag =>
    have hv := visits_of_visitsTag h
    rw [attributes_leave (tagStep_close src d hc)] at hv
    exact finish hv
  | markup => exact finish (visits_other h hc (by decide) (by simp))
  | value dynamic =>
    obtain ⟨v, hv, -⟩ := h
    obtain ⟨w, e, hover, -⟩ := ReadsOver.text '"' (k := []) (s := ['>']) v hc (by simp)
    have hrest := hover.spans.behind hc
    obtain ⟨hfaults, hbody⟩ := hv.unclosed (hover.read.trans (readValue_nil '"' w hrest))
    refine ⟨?_, hbody.trans (List.append_nil _).symm⟩
    rw [hfaults, hd, hover.faults, hv.faults]
    rfl

theorem readsItems_cons {d' : Draft} {e : Cursor} {i : Item} {is : List Item}
    (hs : Spans c i.chars e)
    (hbody : attributesOf d'.body = attributesOf d.body ++ (i.attribute? c.offset).toList) :
    ReadsItems src d c (i :: is) ↔ ReadsItems src d' e is := by
  have hitems : attributesOf d.body ++ itemAttributes c.offset (i :: is) =
      attributesOf d'.body ++ itemAttributes e.offset is := by
    rw [itemAttributes, hbody, hs.offset, List.append_assoc]
  exact ⟨fun h => ⟨h.faults, h.attributes.trans hitems⟩,
    fun h => ⟨h.faults, h.attributes.trans hitems.symm⟩⟩

/-- Items are read as what they are exactly if each of them leads on. -/
theorem readsItems_iff {is : List Item} (h : StandsOn src f d c) (hd : d.faults = [])
    (hc : c.rest = itemsText is) : ReadsItems src d c is ↔ fits f is = true := by
  induction is generalizing f d c with
  | nil => exact iff_of_true (readsItems_nil h hd hc) rfl
  | cons i is ih =>
    have hr : c.rest = i.chars ++ itemsText is := by
      rw [hc, itemsText, itemsText, List.flatMap_cons, List.append_assoc]
    rw [fits, List.foldlM_cons]
    cases hf : i.next f with
    | none => exact iff_of_false (not_reads_of_next h hr hf) (by simp)
    | some f' =>
      obtain ⟨d', e, hs, hstands, hfaults, hbody⟩ := leadsOn_of_next h hr hf
      have hrest := hs.behind hr
      rw [readsItems_cons hs hbody]
      exact ih hstands (hfaults.trans hd) hrest

end

theorem endsAttributeName_of_isAlpha {x : Char} (h : x.isAlpha = true) :
    endsAttributeName x = false := by
  by_contra hx
  simp only [endsAttributeName, Bool.not_eq_false, Bool.or_eq_true, beq_iff_eq] at hx
  rcases hx with ((((((hx | rfl) | rfl) | rfl) | rfl) | rfl) | rfl) | rfl
  · rcases eq_of_isAsciiBlank hx with rfl | rfl | rfl | rfl | rfl <;> cases h
  all_goals cases h

theorem not_isTagNamePart_itemsText (items : List Item) :
    ∀ x ∈ (itemsText items).head?, isTagNamePart x = false := by
  intro x hx
  rcases head?_itemsText items x hx with h | rfl
  · rcases eq_of_isAsciiBlank h with rfl | rfl | rfl | rfl | rfl <;> decide
  · decide

/-- The scan of a tag starts behind the letters and digits of its name; what is left of the name is
passed like an attribute without a value. -/
theorem StartTag.visitsTag (t : StartTag) (file : String) :
    ∃ e, Spans (.start t.text) ('<' :: t.initial :: t.name) e ∧
      VisitsTag ⟨t.text, file⟩ (.start t.text) e := by
  have hr : (Cursor.start t.text).rest = '<' :: t.initial :: (t.name ++ itemsText t.items) := rfl
  have hinside : ∀ x ∈ t.initial :: t.name, endsAttributeName x = false :=
    List.forall_mem_cons.2 ⟨endsAttributeName_of_isAlpha t.alpha, t.inside⟩
  have henter : VisitsTag ⟨t.text, file⟩ (.start t.text) _ := .enter .start hr t.alpha
  obtain ⟨p, q, hsplit, hp, hq⟩ : ∃ p q, t.initial :: t.name = p ++ q ∧
      (∀ x ∈ p, isTagNamePart x = true) ∧ ∀ x ∈ q.head?, isTagNamePart x = false :=
    ⟨_, _, List.takeWhile_append_dropWhile.symm,
      fun x hx => List.all_eq_true.1 List.all_takeWhile x hx, fun x hx => by
        have := List.head?_dropWhile_not isTagNamePart (t.initial :: t.name)
        rw [Option.mem_def.1 hx] at this
        simpa using this⟩
  have hn : (Cursor.start t.text).next.rest = p ++ (q ++ itemsText t.items) := by
    rw [← List.append_assoc, ← hsplit, rest_next, hr]
    rfl
  have hend : ∀ x ∈ (q ++ itemsText t.items).head?, isTagNamePart x = false := by
    cases q with
    | nil => exact not_isTagNamePart_itemsText t.items
    | cons y q => exact hq
  have hspans := (Spans.next hr).trans (Spans.advance_length hn)
  rw [skipWhile_run hn hp hend] at henter
  rw [hsplit]
  by_cases hnil : q = []
  · rw [hnil, List.append_nil]
    exact ⟨_, hspans, henter⟩
  · let rest : AttributeWord :=
      ⟨q, fun x hx => hinside x (hsplit ▸ List.mem_append_right p hx), hnil⟩
    have hrest : ((Cursor.start t.text).next.advance p.length).rest =
        [] ++ rest.chars ++ itemsText t.items := hspans.behind (hr.trans (congrArg _ hn))
    obtain ⟨start, nameEnd, hname, hgap, hword⟩ := attributeName_of_rest rest
      (by simp [Blanks]) hrest (endsAttributeName_itemsText t.items)
    have hbehind := (hgap.trans hword).behind hrest
    refine ⟨nameEnd, ?_, henter.stay (tagStep_bare hname (head?_behind_blanks hbehind))⟩
    have := hspans.trans (hgap.trans hword)
    rwa [List.nil_append, List.singleton_append, List.cons_append] at this

/-- Every attribute with a directive in its value is written, and nothing is reported, exactly if
each item of the tag leads on. -/
theorem attributes_parse_iff (t : StartTag) (file : String) (names : ClassNames) :
    let parsed := (⟨t.text, file⟩ : Source).parse names
    (parsed.diagnostics = [] ∧
      attributesOf (parsed.tree.body names.execute) = t.attributes) ↔
        fits .tag t.items = true := by
  intro parsed
  obtain ⟨e, hs, he⟩ := t.visitsTag file
  have hrest : e.rest = itemsText t.items := hs.behind rfl
  have hstands : StandsOn ⟨t.text, file⟩ .tag (.start t.text) e := he
  rw [← readsItems_iff hstands rfl hrest, diagnostics_parse_eq_nil, body_parse]
  have hoffset : e.offset = byteLength ('<' :: t.initial :: t.name) := by
    rw [hs.offset]
    exact Nat.zero_add _
  have hitems : attributesOf (Draft.start t.text).body ++ itemAttributes e.offset t.items =
      t.attributes := by
    rw [hoffset]
    rfl
  rw [← hitems]
  exact ⟨fun h => ⟨h.1, h.2⟩, fun h => ⟨h.faults, h.attributes⟩⟩

/-! ## An attribute behind a directive -/

def oneBlank : Gap := ⟨[' '], by simp [Blanks, isAsciiBlank], by simp⟩

def wordX : DirectiveWord := ⟨['x'], 'x', [], rfl, rfl, by simp⟩

def nameA : AttributeWord := ⟨['a'], by simp [endsAttributeName, isAsciiBlank], by simp⟩

def valueX : DynamicValue where
  pieces := [⟨⟨[], by simp [Plain]⟩, by simp, wordX⟩]
  ne_nil := by simp
  tail := ⟨[], by simp [Plain]⟩

def directiveTag : StartTag :=
  ⟨'p', rfl, [], by simp, [.directive oneBlank wordX, .dynamic oneBlank nameA valueX]⟩

theorem attributesOf_directiveTag (file : String) :
    attributesOf (scanned ⟨directiveTag.text, file⟩).body = [] := by
  obtain ⟨c, hs, hc⟩ := directiveTag.visitsTag file
  have hr : c.rest = (Item.directive oneBlank wordX).chars ++
      itemsText [.dynamic oneBlank nameA valueX] := hs.behind rfl
  have hstands : StandsOn ⟨directiveTag.text, file⟩ .tag _ c := hc
  obtain ⟨d, e, hse, he, -, hbody⟩ := leadsOn_of_next hstands hr rfl
  have hr := hse.behind hr
  -- The opening of the attribute and what is behind its directive are text of the markup.
  obtain ⟨v, hsv, hv⟩ := visits_opening oneBlank nameA he hr
  have hr := hsv.behind hr
  have hw : v.afterWord = false := by
    rw [afterWord, hsv.last]
    rfl
  obtain ⟨x, t, hst, ht⟩ := wordX.visits hv hw hr
  have hr := hst.behind hr
  obtain ⟨u, hsu, hu⟩ := visits_pass (s := ['"', '>']) (k := []) ht hr (by simp)
  have hend : u.rest = [] := hsu.behind hr
  rw [scanned_of_visits hu, scan_end hend, attributesOf_flush, attributesOf_write, hbody]
  rfl

/-- Behind a directive an attribute of the tag is markup. -/
theorem attribute_behind_directive_lost :
    ¬ ∀ (t : StartTag) (file : String) (names : ClassNames),
      let parsed := (⟨t.text, file⟩ : Source).parse names
      parsed.diagnostics = [] ∧ (attributesOf (parsed.tree.body names.execute)).map Prod.fst =
        t.attributes.map Prod.fst := by
  intro h
  have hnames := (h directiveTag "page" {}).2
  rw [body_parse, attributesOf_directiveTag] at hnames
  cases hnames

end Sigil.Template
