import Sigil.Proofs.Template.Draft

/-!
# Fragments of attributes

An attribute that is written takes one stretch of the template: its opening up to the quote, the
fragments of its value one behind the other, and its closing (`attribute_tiles`). A fragment is the
blanks in front of it and then a directive, or a word in which each `@@` stands for one `@`. While a
value is read, its fragments tile it up to the last gap and the word that is read reaches from there
to the cursor (`ValueDraft.Reads`); each step of the reading keeps this.
-/

namespace Sigil.Template

open Text Cursor

/-! ## Words -/

/-- A text with each `@@`, taken from the left, made one `@`. -/
def undoubled : List Char → List Char
  | [] => []
  | [x] => [x]
  | x :: y :: r => if x = '@' ∧ y = '@' then '@' :: undoubled r else x :: undoubled (y :: r)

theorem undoubled_at (r : List Char) : undoubled ('@' :: '@' :: r) = '@' :: undoubled r := rfl

theorem undoubled_cons {x : Char} {r : List Char} (h : x = '@' → r.head? ≠ some '@') :
    undoubled (x :: r) = x :: undoubled r := by
  cases r with
  | nil => rfl
  | cons y r => exact if_neg fun ⟨hx, hy⟩ => h hx (congrArg some hy)

theorem mem_of_mem_undoubled {s : List Char} {z : Char} (h : z ∈ undoubled s) : z ∈ s := by
  fun_induction undoubled s with
  | case1 => exact h
  | case2 x => exact h
  | case3 x y r hat ih =>
    obtain ⟨rfl, rfl⟩ := hat
    rcases List.mem_cons.1 h with rfl | h
    · exact List.mem_cons_self
    · exact List.mem_cons_of_mem _ (List.mem_cons_of_mem _ (ih h))
  | case4 x y r hat ih =>
    rcases List.mem_cons.1 h with rfl | h
    · exact List.mem_cons_self
    · exact List.mem_cons_of_mem _ (ih h)

theorem undoubled_ne_nil {s : List Char} (h : s ≠ []) : undoubled s ≠ [] := by
  fun_cases undoubled s with
  | case1 => exact absurd rfl h
  | case2 | case3 | case4 => exact List.cons_ne_nil _ _

/-- A text without a blank, and not empty. -/
def IsWord (s : List Char) : Prop := s ≠ [] ∧ ∀ x ∈ s, isAsciiBlank x = false

theorem IsWord.append {s t : List Char} (hs : IsWord s) (ht : IsWord t) : IsWord (s ++ t) :=
  ⟨List.append_ne_nil_of_left_ne_nil hs.1 t, List.forall_mem_append.2 ⟨hs.2, ht.2⟩⟩

theorem IsWord.undoubled {s : List Char} (hs : IsWord s) : IsWord (undoubled s) :=
  ⟨undoubled_ne_nil hs.1, fun x hx => hs.2 x (mem_of_mem_undoubled hx)⟩

/-! ## Tilings -/

/-- The directive `@` and `s` stands in the text behind `p` and is read as `x`. -/
def DirectiveAt (text p s : List Char) (x : Expr) : Prop :=
  ∃ c e, Spans (.start text) p c ∧ Spans c ('@' :: s) e ∧ directive c.offset c.next = .ok (x, e)

/-- The fragments tile a value that starts behind `p`, up to some place in it. -/
inductive Laid (text p : List Char) : List Char → List Fragment → Prop where
  | nil : Laid text p [] []
  | literal {t lead word : List Char} {fs : List Fragment} : Laid text p t fs → Blanks lead →
      IsWord word →
      Laid text p (t ++ lead ++ word)
        (fs ++ [.literal ⟨String.ofList lead, byteLength (p ++ t)⟩
          ⟨String.ofList (undoubled word), byteLength (p ++ t ++ lead)⟩])
  | dynamic {t lead s : List Char} {x : Expr} {fs : List Fragment} : Laid text p t fs →
      Blanks lead → DirectiveAt text (p ++ t ++ lead) s x →
      Laid text p (t ++ lead ++ '@' :: s)
        (fs ++ [.dynamic ⟨String.ofList lead, byteLength (p ++ t)⟩ x (byteLength (p ++ t ++ lead))])

/-- An attribute tiles a stretch of the text with its opening, the fragments of its value and its
closing. The opening ends with the quote that the closing is behind its blanks. -/
inductive AttributeWrite.Tiles (text : List Char) : AttributeWrite → Prop where
  | mk {p o t l r : List Char} {q : Char} {name : String} {fs : List Fragment} :
      text = p ++ (o ++ [q]) ++ t ++ (l ++ [q]) ++ r → q = '"' ∨ q = '\'' → Blanks l →
      Laid text (p ++ (o ++ [q])) t fs → (∃ lead x n, .dynamic lead x n ∈ fs) →
      Tiles text
        { name := name
          opening := ⟨String.ofList (o ++ [q]), byteLength p⟩
          closing := ⟨String.ofList (l ++ [q]), byteLength (p ++ (o ++ [q]) ++ t)⟩
          fragments := fs }

theorem Laid.isWord {text p t : List Char} {fs : List Fragment} (h : Laid text p t fs)
    {lead value : Placed} (hmem : .literal lead value ∈ fs) : IsWord value.text.toList := by
  induction h with
  | nil => cases hmem
  | literal _ _ hword ih =>
    rcases List.mem_append.1 hmem with hmem | hmem
    · exact ih hmem
    · cases List.mem_singleton.1 hmem
      rw [String.toList_ofList]
      exact hword.undoubled
  | dynamic _ _ _ ih =>
    rcases List.mem_append.1 hmem with hmem | hmem
    · exact ih hmem
    · cases List.mem_singleton.1 hmem

/-! ## Values that are read -/

/-- What stands between a gap and `c`: blanks, and behind them the word that is read, if there is
one. A doubled `@` lies in the word or behind it, never across `c`. -/
inductive Pending (gap c : Cursor) : Option (Cursor × List Char) → Prop where
  | blanks {lead : List Char} : Spans gap lead c → Blanks lead → Pending gap c none
  | word {w : Cursor} {lead s cs : List Char} : Spans gap lead w → Blanks lead → Spans w s c →
      IsWord s → (∀ u, u <+: c.rest → undoubled (s ++ u) = cs ++ undoubled u) →
      Pending gap c (some (w, cs))

/-- The value behind `p` has been read up to `c`. -/
structure ValueDraft.Reads (text p : List Char) (v : ValueDraft) (c : Cursor) : Prop where
  laid : ∃ t, Spans (.start text) (p ++ t) v.gap ∧ Laid text p t v.fragments
  pending : Pending v.gap c v.word

namespace ValueDraft.Reads

variable {text p s r : List Char} {v : ValueDraft} {c e : Cursor} {x : Char}

theorem start (h : Spans (.start text) p c) : (ValueDraft.start c).Reads text p c :=
  ⟨⟨[], by rwa [List.append_nil], .nil⟩, .blanks (Spans.refl c) (List.forall_mem_nil _)⟩

theorem blanks (h : v.Reads text p c) (hw : v.word = none) :
    ∃ lead, Spans v.gap lead c ∧ Blanks lead := by
  have hp := h.pending
  rw [hw] at hp
  cases hp with
  | blanks hs hb => exact ⟨_, hs, hb⟩

theorem close (h : v.Reads text p c) : (v.close c).Reads text p c ∧ (v.close c).word = none := by
  obtain ⟨⟨t, hgap, hlaid⟩, hp⟩ := h
  unfold ValueDraft.close
  cases hv : v.word with
  | none =>
    rw [hv] at hp
    exact ⟨⟨⟨t, hgap, hlaid⟩, hv.symm ▸ hp⟩, hv⟩
  | some wcs =>
    rw [hv] at hp
    cases hp with
    | @word w lead s cs hlead hb hs hword hsplit =>
      have hcs : cs = undoubled s := by
        have := hsplit [] List.nil_prefix
        rw [List.append_nil] at this
        rw [this]
        exact (List.append_nil cs).symm
      have hw := hgap.trans hlead
      refine ⟨⟨⟨t ++ lead ++ s, ?_, ?_⟩, .blanks (Spans.refl c) (List.forall_mem_nil _)⟩, rfl⟩
      · simpa only [List.append_assoc] using hw.trans hs
      · simp only [hlead.placed, hgap.offset_start, hw.offset_start, hcs]
        exact hlaid.literal hb hword

theorem blank (h : v.Reads text p c) (hw : v.word = none) (hr : c.rest = x :: r)
    (hx : isAsciiBlank x = true) : v.Reads text p c.next := by
  obtain ⟨lead, hs, hb⟩ := h.blanks hw
  refine ⟨h.laid, ?_⟩
  rw [hw]
  exact .blanks (hs.trans (Spans.next hr))
    (List.forall_mem_append.2 ⟨hb, List.forall_mem_singleton.2 hx⟩)

/-- Text that stands for one character makes the word longer, or starts one. -/
theorem add (h : v.Reads text p c) (hs : Spans c s e) (hword : IsWord s)
    (hx : ∀ u, u <+: e.rest → undoubled (s ++ u) = x :: undoubled u) :
    (v.push c x).Reads text p e := by
  obtain ⟨hlaid, hp⟩ := h
  refine ⟨by rwa [gap_push, fragments_push], ?_⟩
  rw [gap_push]
  unfold push
  cases hv : v.word with
  | none =>
    rw [hv] at hp
    cases hp with
    | blanks hlead hb => exact .word hlead hb hs hword hx
  | some wcs =>
    rw [hv] at hp
    cases hp with
    | @word w lead s' cs hlead hb hs' hword' hsplit =>
      refine .word hlead hb (hs'.trans hs) (hword'.append hword) fun u hu => ?_
      -- The word so far is undoubled apart from all that is left at `c`, the added text included.
      have hsu : s ++ u <+: c.rest := by
        rw [hs.rest]
        exact List.prefix_append_right_inj s |>.2 hu
      rw [List.append_assoc, hsplit _ hsu, hx u hu, List.append_assoc]
      rfl

theorem push (h : v.Reads text p c) (hr : c.rest = x :: r) (hb : isAsciiBlank x = false)
    (hat : x = '@' → r.head? ≠ some '@') : (v.push c x).Reads text p c.next := by
  have hword : IsWord [x] := ⟨List.cons_ne_nil x [], List.forall_mem_singleton.2 hb⟩
  refine h.add (Spans.next hr) hword fun u hu => ?_
  have hn : c.next.rest = r := by simp [hr]
  rw [hn] at hu
  obtain ⟨k, rfl⟩ := hu
  have hhead : x = '@' → u.head? ≠ some '@' := by
    intro hx hu
    exact hat hx (by rw [List.head?_append, hu, Option.some_or])
  exact undoubled_cons hhead

theorem escape (h : v.Reads text p c) (hr : c.rest = '@' :: '@' :: r) :
    (v.escape c).Reads text p (c.advance 2) := by
  have hs : Spans c ['@', '@'] (c.advance 2) := Spans.advance_length (s := ['@', '@']) hr
  have hword : IsWord ['@', '@'] := ⟨List.cons_ne_nil _ _, by simp [isAsciiBlank]⟩
  have hpush := h.add (x := '@') hs hword fun u _ => undoubled_at u
  exact ⟨hpush.laid, hpush.pending⟩

theorem express {y : Expr} (h : v.Reads text p c) (hr : c.rest = '@' :: r)
    (hy : directive c.offset c.next = .ok (y, e)) : (v.express c e y).Reads text p e := by
  obtain ⟨hclose, hw⟩ := h.close
  obtain ⟨lead, hlead, hb⟩ := hclose.blanks hw
  obtain ⟨t, hgap, hlaid⟩ := hclose.laid
  obtain ⟨z, s, hs, -⟩ := yields_of_directive hy
  have hc := hgap.trans hlead
  have hdir : Spans c ('@' :: z :: s) e := (Spans.next hr).trans hs
  refine ⟨⟨t ++ lead ++ '@' :: z :: s, ?_, ?_⟩, ?_⟩
  · simpa only [ValueDraft.express, List.append_assoc] using hc.trans hdir
  · simp only [ValueDraft.express, hlead.placed, hgap.offset_start, hc.offset_start]
    exact hlaid.dynamic hb ⟨c, e, hc, hdir, hy⟩
  · simp only [ValueDraft.express, hw]
    exact .blanks (Spans.refl e) (List.forall_mem_nil _)

end ValueDraft.Reads

/-- The fragments of a value tile it up to the blanks in front of its closing quote. -/
theorem reads_readValue {text p : List Char} {quote : Char} {v w : ValueDraft} {c e : Cursor}
    (h : readValue quote v c = (w, some e)) (hv : v.Reads text p c) :
    w.Reads text p e ∧ w.word = none := by
  fun_induction readValue quote v c generalizing w with
  | case1 => simp at h
  | case2 v c r hr =>
    simp only [Prod.mk.injEq, Option.some.injEq] at h
    rw [← h.1, ← h.2]
    exact hv.close
  | case3 v c x r hr _ hq hb ih => exact ih h (hv.close.1.blank hv.close.2 hr hb)
  | case4 v c r hn hr _ hq hb ih =>
    obtain ⟨u, rfl⟩ := List.head?_eq_some_iff.1 hn
    exact ih h (hv.escape hr)
  | case5 v c r hn ha hr _ hq hb ih => exact ih h (hv.push hr (by simpa using hb) fun _ => hn)
  | case6 v c r hn ha y s hs hl hr _ hq hb ih => exact ih h (hv.express hr hs)
  | case7 v c r hn ha f hf hr _ hq hb ih =>
    have hfault : (v.fault f).Reads text p c := ⟨hv.laid, hv.pending⟩
    exact ih h (hfault.push hr (by simpa using hb) fun _ => hn)
  | case8 v c x r hr _ hq hb hx ih =>
    exact ih h (hv.push hr (by simpa using hb) fun e => absurd e hx)

/-! ## Attributes of a body -/

section

variable {src : Source} {d e : Draft} {c t : Cursor}

theorem tiles_of_value {before name nameEnd value close : Cursor} {quote : Char} {v : ValueDraft}
    {p : List Char} (hp : Spans (.start src.text) p before)
    (ha : AttributeHead before name nameEnd value quote)
    (hv : readValue quote (.start value.next) value.next = (v, some close))
    (hdyn : v.isDynamic = true) :
    AttributeWrite.Tiles src.text
      { name := String.ofList (name.between nameEnd)
        opening := before.placed value.next
        closing := v.gap.placed close.next
        fragments := v.fragments } := by
  obtain ⟨o, ho, -⟩ := ha.clear.1.trans (ha.clear.2.trans (clear_equals ha.equals ha.value_eq))
  obtain ⟨r, hr⟩ := ha.rest_value
  have hopening := ho.trans (Spans.next hr)
  have hstart := hp.trans hopening
  obtain ⟨hreads, hw⟩ := reads_readValue hv (.start hstart)
  obtain ⟨t, hgap, hlaid⟩ := hreads.laid
  obtain ⟨l, hl, hb⟩ := hreads.blanks hw
  obtain ⟨k, hk⟩ := List.head?_eq_some_iff.1 (length_of_readValue hv).2
  have hclosing := hl.trans (Spans.next hk)
  rw [hopening.placed, hclosing.placed, hp.offset_start, hgap.offset_start]
  refine .mk (hgap.trans hclosing).rest ha.quote_eq hb hlaid ?_
  obtain ⟨f, hf, hfdyn⟩ := List.any_eq_true.1 hdyn
  cases f with
  | literal lead value => cases hfdyn
  | dynamic lead x n => exact ⟨lead, x, n, hf⟩

theorem attribute_of_mem_flush {w : AttributeWrite} (hl : ∃ p s, Located src d c p s)
    (hw : .attribute w ∈ (d.flush c).body) : .attribute w ∈ d.body := by
  obtain ⟨p, s, h⟩ := hl
  rcases Draft.mem_flush h.run hw with hw | hw
  · exact hw
  · cases hw

/-- One move adds attributes that tile a stretch of the template. -/
theorem tiles_of_move (hl : ∃ p s, Located src d c p s)
    (h : ∀ w, .attribute w ∈ d.body → w.Tiles src.text) (hm : Move src (d, c) (e, t)) :
    ∀ w, .attribute w ∈ e.body → w.Tiles src.text := by
  intro w hw
  cases hm with
  | keep | refuse | abandon => exact h w hw
  | omits => exact h w (attribute_of_mem_flush hl hw)
  | write =>
    rcases List.mem_append.1 hw with hw | hw
    · exact h w (attribute_of_mem_flush hl hw)
    · simp at hw
  | dynamic ha hv hdyn =>
    rw [Draft.attribute_dynamic hdyn] at hw
    rcases List.mem_append.1 hw with hw | hw
    · exact h w (attribute_of_mem_flush hl hw)
    · obtain ⟨p, s, hlocated⟩ := hl
      have htiles := tiles_of_value hlocated.spans ha hv hdyn
      simp only [List.mem_cons, Statement.attribute.injEq, reduceCtorEq, List.not_mem_nil,
        or_false, false_or] at hw
      rwa [hw]

theorem mem_of_moves {x : Statement} (hl : ∃ p s, Located src d c p s)
    (hm : Moves src (d, c) (e, t)) (hx : x ∈ d.body) : x ∈ e.body := by
  have keeps := invariant_of_moves (fun d c => (∃ p s, Located src d c p s) ∧ x ∈ d.body) hm
    (fun {d c e t} ⟨hl, hx⟩ hmove => by
      refine ⟨Located.move hl hmove, ?_⟩
      obtain ⟨p, s, h⟩ := hl
      rcases run_of_move hmove with ⟨-, hb, -⟩ | ⟨-, ss, hb, -⟩
      · rwa [hb]
      · rw [hb]
        exact List.mem_append_left ss (Draft.mem_flush_of_mem h.run hx))
    ⟨hl, hx⟩
  exact keeps.2

theorem mem_scanned_of_visitsTag {x : Statement} (h : VisitsTag src d c) (hx : x ∈ d.body) :
    x ∈ (scanned src).body := by
  obtain ⟨e, t, hm, -, he⟩ := moves_of_visits (visits_of_visitsTag h)
  have hmoves := (moves_attributes h).trans hm
  have hl := located_of_moves (moves_to_visitTag h)
  obtain ⟨p, s, hlast⟩ := located_of_moves ((moves_to_visitTag h).trans hmoves)
  rw [scanned_of_visitsTag h, he]
  exact Draft.mem_flush_of_mem hlast.run (mem_of_moves hl hmoves hx)

/-- A value with a directive that is closed is written as an attribute. -/
theorem mem_scanned_of_closed {before name nameEnd value close : Cursor} {quote : Char}
    {v : ValueDraft} (hd : VisitsTag src d before)
    (ha : AttributeHead before name nameEnd value quote)
    (hv : readValue quote (.start value.next) value.next = (v, some close))
    (hdyn : v.isDynamic = true) :
    .attribute
      { name := String.ofList (name.between nameEnd)
        opening := before.placed value.next
        closing := v.gap.placed close.next
        fragments := v.fragments } ∈ (scanned src).body := by
  have hstep := ha.tagStep_eq src d
  rw [quotedStep_closed hv, Draft.attribute_dynamic hdyn] at hstep
  exact mem_scanned_of_visitsTag (hd.stay hstep)
    (List.mem_append_right _ (List.mem_cons_of_mem _ List.mem_cons_self))

end

/-- Every attribute of a template tiles a stretch of it, and its words are neither empty nor
broken. -/
theorem attribute_tiles (src : Source) (names : ClassNames) {w : AttributeWrite}
    (h : .attribute w ∈ (src.parse names).tree.body names.execute) :
    w.Tiles src.text ∧
      ∀ lead value, .literal lead value ∈ w.fragments → IsWord value.text.toList := by
  obtain ⟨d, c, hm, -, hd⟩ := moves_of_start src
  have hinv := invariant_of_moves
    (fun d c => (∃ p s, Located src d c p s) ∧ ∀ w, .attribute w ∈ d.body → w.Tiles src.text) hm
    (fun ⟨hl, h⟩ hmove => ⟨Located.move hl hmove, tiles_of_move hl h hmove⟩)
    ⟨⟨[], [], .start src⟩, nofun⟩
  rw [body_parse, hd] at h
  have htiles := hinv.2 w (attribute_of_mem_flush hinv.1 h)
  refine ⟨htiles, fun lead value hvalue => ?_⟩
  cases htiles with
  | mk _ _ _ hlaid _ => exact hlaid.isWord hvalue

/-- The value of `<p a="@x b@@ "`: a directive, a word with a doubled `@`, and a blank. -/
theorem readValue_word_behind_directive :
    let c : Cursor := ⟨6, some '"', ['@', 'x', ' ', 'b', '@', '@', ' ', '"']⟩
    readValue '"' (.start c) c =
      (⟨⟨12, some '@', [' ', '"']⟩, none,
        [.dynamic ⟨"", 6⟩ (.path "x") 6, .literal ⟨" ", 8⟩ ⟨"b@", 9⟩],
        [⟨10, some 'b', ['@', '@', ' ', '"']⟩], []⟩, some ⟨13, some ' ', ['"']⟩) := by
  intro c
  have hx : directive 6 c.next = .ok (.path "x", ⟨8, some 'x', [' ', 'b', '@', '@', ' ', '"']⟩) :=
    yields_path (s := ['x']) (by decide) (by decide) c.next [' ', 'b', '@', '@', ' ', '"'] rfl
      (by simp [Stops, isAsciiBlank])
  rw [readValue_directive _ rfl (by decide) (by decide) (by decide) hx,
    readValue_other _ rfl (by decide) (by decide), readValue_other _ rfl (by decide) (by decide),
    readValue_escape _ rfl (by decide), readValue_other _ rfl (by decide) (by decide),
    readValue_close _ rfl]
  rfl

/-- The attribute of `<p a="@x b@@ "`. -/
theorem word_behind_directive_tiles :
    let src : Source := ⟨attributeTag ['@', 'x', ' ', 'b', '@', '@', ' ', '"'], "page"⟩
    let w : AttributeWrite :=
      { name := "a"
        opening := ⟨" a=\"", 2⟩
        closing := ⟨" \"", 12⟩
        fragments := [.dynamic ⟨"", 6⟩ (.path "x") 6, .literal ⟨" ", 8⟩ ⟨"b@", 9⟩] }
    .attribute w ∈ (src.parse {}).tree.body "execute" ∧ w.Tiles src.text ∧
      ∀ lead value, .literal lead value ∈ w.fragments → IsWord value.text.toList := by
  intro src w
  have hmem : .attribute w ∈ (src.parse {}).tree.body "execute" := by
    rw [body_parse src {}]
    exact mem_scanned_of_closed (visitsTag_attributeTag _ "page") (attributeHead_attributeTag _)
      readValue_word_behind_directive rfl
  exact ⟨hmem, attribute_tiles src {} hmem⟩

end Sigil.Template
