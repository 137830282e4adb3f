import Sigil.Proofs.Template.StartTag

/-!
# Parts of a start tag

What the scan does in front of the parts of an item, as they are written: names, openings of quoted
values, directives and comments in markup, and values with directives.
-/

namespace Sigil.Template

open Text Cursor

/-! ## Passing the parts of an item -/

section

variable {src : Source} {d : Draft} {c : Cursor} {s k : List Char}

theorem visits_pass (h : Visits src d c) (hc : c.rest = s ++ k)
    (hs : ∀ x ∈ s, x ≠ '@' ∧ x ≠ '<') : ∃ e, Spans c s e ∧ Visits src d e := by
  induction s generalizing c with
  | nil => exact ⟨c, Spans.refl c, h⟩
  | cons x s ih =>
    rw [List.forall_mem_cons] at hs
    have hr : c.rest = x :: (s ++ k) := hc
    have hn : c.next.rest = s ++ k := by simp [hr]
    obtain ⟨e, hse, he⟩ := ih (visits_other h hr hs.1.1 fun hx => absurd hx hs.1.2) hn hs.2
    exact ⟨e, (Spans.next hr).trans hse, he⟩

theorem ne_of_endsAttributeName {x : Char} (h : endsAttributeName x = false) :
    isAsciiBlank x = false ∧ x ≠ '=' ∧ x ≠ '>' ∧ x ≠ '/' ∧ x ≠ '"' ∧ x ≠ '\'' ∧ x ≠ '<' ∧
      x ≠ '@' := by
  simpa [endsAttributeName, and_assoc] using h

theorem attributeName_of_rest {gap : List Char} (name : AttributeWord) (hgap : Blanks gap)
    (hc : c.rest = gap ++ name.chars ++ k) (hk : ∀ x ∈ k.head?, endsAttributeName x = true) :
    ∃ start nameEnd, AttributeName c start nameEnd ∧ Spans c gap start ∧
      Spans start name.chars nameEnd := by
  obtain ⟨x, r, hx⟩ := List.exists_cons_of_ne_nil name.ne_nil
  have hends := name.inside
  rw [hx, List.forall_mem_cons] at hends
  have hne := ne_of_endsAttributeName hends.1
  rw [hx, List.append_assoc] at hc
  have hskip : c.skipWhile isAsciiBlank = c.advance gap.length :=
    skipWhile_run hc hgap (by simpa using hne.1)
  have hstart : Spans c gap (c.skipWhile isAsciiBlank) := hskip ▸ Spans.advance_length hc
  have hrest : (c.skipWhile isAsciiBlank).rest = x :: (r ++ k) := hstart.behind hc
  have hnext : (c.skipWhile isAsciiBlank).next.rest = r ++ k := by simp only [rest_next, hrest]; rfl
  have hname : (c.skipWhile isAsciiBlank).next.skipWhile (!endsAttributeName ·) =
      (c.skipWhile isAsciiBlank).next.advance r.length :=
    skipWhile_run hnext (by simpa using hends.2) (by simpa using hk)
  refine ⟨_, _, ⟨rfl, ⟨x, r ++ k, hrest, ?_⟩, rfl⟩, hstart, ?_⟩
  · simp [hne]
  · rw [hx, hname]
    exact (Spans.next hrest).trans (Spans.advance_length hnext)

/-- The head of an attribute that has a value in double quotes. -/
theorem attributeHead_of_rest (gap : Gap) (name : AttributeWord)
    (hc : c.rest = Item.opening gap name ++ k) :
    ∃ start nameEnd value, AttributeHead c start nameEnd value '"' ∧
      start.between nameEnd = name.chars ∧ Spans c (Item.opening gap name) value.next ∧
      value.next.last = some '"' := by
  have hr : c.rest = gap.chars ++ name.chars ++ ('=' :: '"' :: k) := by
    rw [hc, Item.opening]
    simp
  obtain ⟨start, nameEnd, hname, hstart, hend⟩ := attributeName_of_rest name gap.blanks hr
    (by simp [endsAttributeName])
  have hrest : nameEnd.rest = '=' :: '"' :: k := (hstart.trans hend).behind hr
  have hequals : nameEnd.skipWhile isAsciiBlank = nameEnd :=
    skipWhile_self (by simp [hrest, isAsciiBlank])
  have hvalue : nameEnd.next.rest = '"' :: k := by simp [hrest]
  have hskip : nameEnd.next.skipWhile isAsciiBlank = nameEnd.next :=
    skipWhile_self (by rw [hvalue]; simp [isAsciiBlank])
  refine ⟨start, nameEnd, nameEnd.next, ⟨hname, ?_, ?_, ?_, .inl rfl⟩, hend.between, ?_,
    last_next hvalue⟩
  · rw [hequals, hrest]
    rfl
  · rw [hequals, hskip]
  · rw [hvalue]
    rfl
  · exact (hstart.trans hend).trans ((Spans.next hrest).trans (Spans.next hvalue))

theorem tagStep_bare {start nameEnd : Cursor} (h : AttributeName c start nameEnd)
    (hne : (nameEnd.skipWhile isAsciiBlank).rest.head? ≠ some '=') :
    tagStep src d c = .stay d nameEnd := by
  obtain ⟨x, r, hr, h₁, h₂, h₃, h₄, h₅, h₆, h₇⟩ := h.starts
  unfold tagStep
  simp only [← h.name_eq, hr, h₁, h₂, h₃, h₄, h₅, h₆, h₇, if_false, or_self, ← h.nameEnd_eq]
  unfold valueStep
  exact if_pos hne

theorem visits_of_at {gap : List Char} (h : VisitsTag src d c) (hgap : Blanks gap)
    (hc : c.rest = gap ++ '@' :: k) : ∃ e, Spans c gap e ∧ Visits src d e := by
  have hskip : c.skipWhile isAsciiBlank = c.advance gap.length :=
    skipWhile_run hc hgap (by simp [isAsciiBlank])
  have hspans := Spans.advance_length hc
  have hrest : (c.advance gap.length).rest = '@' :: k := hspans.behind hc
  have hstep : tagStep src d c = .leave d (c.advance gap.length) := by
    unfold tagStep
    simp only [hskip, hrest]
    rfl
  have := visits_of_visitsTag h
  rw [attributes_leave hstep] at this
  exact ⟨_, hspans, this⟩

end

/-! ## Directives and comments -/

theorem Identifier.surface {s : List Char} (h : Identifier s) : ∃ x, Surface x s := by
  by_cases hw : s ∈ words
  · simp only [words, List.mem_cons, List.not_mem_nil, or_false] at hw
    rcases hw with rfl | rfl | rfl
    · exact ⟨_, .bool true⟩
    · exact ⟨_, .bool false⟩
    · exact ⟨_, .null⟩
  · have hpath : Surface (.path (String.ofList (join ['.'] [s]))) (join ['.'] [s]) :=
      .path (by simpa using h) hw
    exact ⟨_, hpath⟩

section

variable {src : Source} {d : Draft} {c : Cursor} {k : List Char}

theorem DirectiveWord.written_append (w : DirectiveWord) (k : List Char) :
    w.written ++ k = '@' :: '(' :: (w.chars ++ ')' :: k) := by
  simp [written, inParens]

theorem DirectiveWord.reads (w : DirectiveWord) (hc : c.rest = w.written ++ k) (at_ : Nat) :
    ∃ x e, directive at_ c.next = .ok (x, e) ∧ Spans c w.written e := by
  obtain ⟨x, hx⟩ := w.identifier.surface
  have hr : c.rest = '@' :: (inParens [] w.chars [] ++ k) := hc
  have hn : c.next.rest = inParens [] w.chars [] ++ k := by simp [hr]
  have hblanks : Blanks [] := by simp [Blanks]
  exact ⟨x, _, hx.directive hblanks hblanks hn at_, (Spans.next hr).trans (Spans.advance_length hn)⟩

theorem DirectiveWord.visits (w : DirectiveWord) (h : Visits src d c) (hw : c.afterWord = false)
    (hc : c.rest = w.written ++ k) :
    ∃ x e, Spans c w.written e ∧ Visits src (d.write src c e x) e := by
  obtain ⟨x, e, hx, hs⟩ := w.reads hc c.offset
  have hr : c.rest = '@' :: '(' :: (w.chars ++ ')' :: k) := hc.trans (w.written_append k)
  have hstep := step_directive src d hr hw (.inl rfl) rfl hx
  have hnext := h.step (by rw [hr]; simp)
  rw [hstep] at hnext
  exact ⟨x, e, hs, hnext⟩

theorem cut?_commentEnd {s : List Char} (hs : ¬ commentEnd <:+: s) (k : List Char) :
    cut? commentEnd (s ++ (commentEnd ++ k)) = some (s, k) := by
  induction s with
  | nil => rfl
  | cons x s ih =>
    have hnone : after? commentEnd (x :: (s ++ (commentEnd ++ k))) = none := by
      rw [Option.eq_none_iff_forall_ne_some]
      intro t ht
      rw [after?_eq_some_iff] at ht
      obtain ⟨rfl, htail⟩ := List.cons.inj ht
      cases s with
      | nil => cases htail
      | cons y s =>
        obtain ⟨rfl, -⟩ := List.cons.inj htail
        exact hs ⟨[], s, rfl⟩
    rw [List.cons_append, cut?, hnone, ih fun h => hs (h.trans (List.suffix_cons x s).isInfix)]
    rfl

theorem CommentText.visits (t : CommentText) (h : Visits src d c) (hw : c.afterWord = false)
    (hc : c.rest = '@' :: '*' :: (t.chars ++ commentEnd) ++ k) :
    ∃ e, Spans c ('@' :: '*' :: (t.chars ++ commentEnd)) e ∧
      Visits src ((d.flush c).resume e) e := by
  have hr : c.rest = '@' :: '*' :: (t.chars ++ (commentEnd ++ k)) := by simp [hc]
  have hn : c.next.rest = '*' :: (t.chars ++ (commentEnd ++ k)) := by simp [hr]
  have hskip : (c.advance 2).rest = t.chars ++ (commentEnd ++ k) := by simp [hr]
  have hend : endOf? commentEnd (c.advance 2).rest = some (t.chars ++ commentEnd).length := by
    rw [endOf?, hskip, cut?_commentEnd t.inside, List.length_append]
    rfl
  have hstep : step src d c = ((d.flush c).resume (c.advance ((t.chars ++ commentEnd).length + 2)),
      c.advance ((t.chars ++ commentEnd).length + 2)) := by
    rw [step_at src d hr]
    unfold transition
    simp only [hw, hn, hend, advance_advance, Nat.add_comm 2]
    rfl
  have hnext := h.step (by rw [hr]; simp)
  rw [hstep] at hnext
  exact ⟨_, Spans.advance_length hc, hnext⟩

/-! ## Values with directives -/

theorem DirectiveWord.readsOver (w : DirectiveWord) (v : ValueDraft) (hw : c.afterWord = false)
    (hc : c.rest = w.written ++ k) :
    ∃ u e, ReadsOver '"' v c w.written u e ∧ u.isDynamic = true := by
  obtain ⟨x, e, hx, hs⟩ := w.reads hc c.offset
  have hr : c.rest = '@' :: '(' :: (w.chars ++ ')' :: k) := hc.trans (w.written_append k)
  have hread : readValue '"' v c = readValue '"' (v.express c e x) e :=
    readValue_directive v hr (by decide) (by simp) hw hx
  exact ⟨_, e, ⟨hs, hread, ValueDraft.faults_express .., ValueDraft.escapes_express ..⟩,
    ValueDraft.isDynamic_express ..⟩

theorem DirectiveWord.last (w : DirectiveWord) {e : Cursor} (hs : Spans c w.written e) :
    e.afterWord = false := by
  have hlast : w.written.getLast? = some ')' := by
    rw [written, inParens, ← List.cons_append, ← List.cons_append, List.getLast?_concat]
  rw [afterWord, hs.last, hlast]
  rfl

theorem Piece.readsOver (p : Piece) (v : ValueDraft) (hw : c.afterWord = false)
    (hc : c.rest = p.written ++ k) :
    ∃ u e, ReadsOver '"' v c p.written u e ∧ u.isDynamic = true ∧ e.afterWord = false := by
  rw [written, List.append_assoc] at hc
  obtain ⟨w, t, htext, -⟩ := ReadsOver.text '"' v hc fun x hx =>
    ⟨(p.plain x hx).1, (p.plain x hx).2.1⟩
  have hrest : t.rest = p.word.written ++ k := htext.spans.behind hc
  obtain ⟨u, e, hword, hdyn⟩ := p.word.readsOver w (htext.spans.afterWord hw p.ends) hrest
  exact ⟨u, e, htext.trans hword, hdyn, p.word.last hword.spans⟩

theorem readsOver_pieces (ps : List Piece) (v : ValueDraft) (hw : c.afterWord = false)
    (hc : c.rest = ps.flatMap Piece.written ++ k) :
    ∃ u e, ReadsOver '"' v c (ps.flatMap Piece.written) u e ∧
      u.isDynamic = (v.isDynamic || !ps.isEmpty) := by
  induction ps generalizing v c with
  | nil => exact ⟨v, c, .refl '"' v c, by simp⟩
  | cons p ps ih =>
    rw [List.flatMap_cons, List.append_assoc] at hc
    obtain ⟨w, t, hfirst, hdyn, hlast⟩ := p.readsOver v hw hc
    obtain ⟨u, e, hmore, hdyn'⟩ := ih w hlast (hfirst.spans.behind hc)
    exact ⟨u, e, hfirst.trans hmore, by simp [hdyn', hdyn]⟩

theorem DynamicValue.readsOver (value : DynamicValue) (v : ValueDraft) (hw : c.afterWord = false)
    (hc : c.rest = value.chars ++ k) :
    ∃ u e, ReadsOver '"' v c value.chars u e ∧ u.isDynamic = true := by
  rw [chars, List.append_assoc] at hc
  obtain ⟨w, t, hpieces, hdyn⟩ := readsOver_pieces value.pieces v hw hc
  obtain ⟨u, e, htail, hdyn'⟩ := ReadsOver.text '"' w (hpieces.spans.behind hc)
    fun x hx => ⟨(value.tail.plain x hx).1, (value.tail.plain x hx).2.1⟩
  refine ⟨u, e, hpieces.trans htail, ?_⟩
  rw [hdyn', hdyn]
  simp [value.ne_nil]

end

end Sigil.Template
