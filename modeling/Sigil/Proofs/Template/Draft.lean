import Sigil.Proofs.Template.Move

/-!
# Drafts

What the writing of a literal run, of a directive and of an attribute adds to a draft, and what
the class tree of a template takes from the last draft. A template that is one directive writes it
and nothing else (`writesAlone_of_yields`).
-/

namespace Sigil.Template

open Text Cursor Relation

/-! ## The class tree -/

section Parse

variable (src : Source) (names : ClassNames)

theorem body_parse : (src.parse names).tree.body names.execute = (scanned src).body :=
  ClassNames.body_tree names (scanned src).body

theorem diagnostics_parse :
    (src.parse names).diagnostics = (scanned src).faults.map (Diagnostic.ofFault src.text) := rfl

theorem diagnostics_parse_eq_nil :
    (src.parse names).diagnostics = [] ↔ (scanned src).faults = [] := by
  rw [diagnostics_parse, List.map_eq_nil_iff]

end Parse

/-! ## Writing -/

def Statement.literal? : Statement → Option String
  | .literal text _ => some text
  | _ => none

def written (body : List Statement) : List Char :=
  body.flatMap fun s => s.literal?.elim [] String.toList

theorem written_append (a b : List Statement) : written (a ++ b) = written a ++ written b :=
  List.flatMap_append

theorem written_of_none {body : List Statement} (h : ∀ s ∈ body, s.literal? = none) :
    written body = [] :=
  List.flatMap_eq_nil_iff.2 fun s hs => by rw [h s hs]; rfl

/-- Literals that give the text `t`. -/
def WritesText (body : List Statement) (t : List Char) : Prop :=
  (∀ s ∈ body, s.literal?.isSome = true) ∧ written body = t

namespace Draft

variable {d : Draft} {c : Cursor} {s : List Char}

theorem flush_of_spans (h : Spans d.pending s c) (hs : s ≠ []) :
    d.flush c =
      { d with pending := c, body := d.body ++ [.literal (String.ofList s) d.pending.offset] } := by
  simp [flush, h.placed, hs]

theorem flush_pending (d : Draft) : d.flush d.pending = d := by
  simp [flush, (Spans.refl d.pending).placed]

theorem body_flush (h : Spans d.pending s c) :
    s = [] ∧ (d.flush c).body = d.body ∨
      s ≠ [] ∧ (d.flush c).body = d.body ++ [.literal (String.ofList s) d.pending.offset] := by
  by_cases hs : s = []
  · subst hs
    rw [h.unique (Spans.refl d.pending), flush_pending]
    exact .inl ⟨rfl, rfl⟩
  · rw [flush_of_spans h hs]
    exact .inr ⟨hs, rfl⟩

theorem written_flush (h : Spans d.pending s c) :
    written (d.flush c).body = written d.body ++ s := by
  rcases body_flush h with ⟨rfl, hb⟩ | ⟨-, hb⟩
  · rw [hb, List.append_nil]
  · have hs : written [.literal (String.ofList s) d.pending.offset] = s := by
      simp [written, Statement.literal?]
    rw [hb, written_append, hs]

theorem mem_flush (h : Spans d.pending s c) {x : Statement} (hx : x ∈ (d.flush c).body) :
    x ∈ d.body ∨ x.literal?.isSome = true := by
  rcases body_flush h with ⟨-, hb⟩ | ⟨-, hb⟩
  · exact .inl (hb ▸ hx)
  · rw [hb] at hx
    rcases List.mem_append.1 hx with hx | hx
    · exact .inl hx
    · rw [List.mem_singleton.1 hx]
      exact .inr rfl

theorem mem_flush_of_mem (h : Spans d.pending s c) {x : Statement} (hx : x ∈ d.body) :
    x ∈ (d.flush c).body := by
  rcases body_flush h with ⟨-, hb⟩ | ⟨-, hb⟩
  · rwa [hb]
  · rw [hb]
    exact List.mem_append_left _ hx

theorem attribute_dynamic {src : Source} {before name nameEnd opened quote : Cursor}
    {v : ValueDraft} (hv : v.isDynamic = true) :
    d.attribute src before name nameEnd opened quote v =
      ((d.flush before).emit src name (.attribute
        { name := String.ofList (name.between nameEnd)
          opening := before.placed opened
          closing := v.gap.placed quote.next
          fragments := v.fragments })).resume quote.next := by
  rw [Draft.attribute, if_pos hv]

end Draft

/-! ## Steps of the scan -/

theorem scan_end {src : Source} {d : Draft} {c : Cursor} (hc : c.rest = []) :
    scan src d c = d.flush c := by
  rw [scan, dif_pos hc]

theorem step_directive (src : Source) (d : Draft) {c e : Cursor} {x : Expr} {y : Char}
    {r : List Char} (hc : c.rest = '@' :: y :: r) (hw : c.afterWord = false)
    (hy : y = '(' ∨ isNameStart y = true) (hu : startsWith (y :: r) importWord = false)
    (hx : directive c.offset c.next = .ok (x, e)) : step src d c = (d.write src c e x, e) := by
  have hn : c.next.rest = y :: r := by simp [hc]
  have hne : y ≠ '@' ∧ y ≠ '*' ∧ y ≠ '{' := by
    refine ⟨?_, ?_, ?_⟩ <;>
      (rintro rfl; exact hy.elim (fun h => absurd h (by decide)) fun h => absurd h (by decide))
  unfold step
  rw [hc]
  simp only
  unfold transition
  simp only [hw, hn, hu, hx]
  split
  · exact absurd ‹_› (by decide)
  · split
    · rename_i h
      cases h
      exact absurd rfl hne.1
    · rename_i h
      cases h
      exact absurd rfl hne.2.1
    · rename_i h
      cases h
      exact absurd rfl hne.2.2
    · rfl

/-- A template that is one directive writes its expression and nothing else. -/
theorem scanned_alone {y : Char} {s : List Char} {x : Expr} (file : String)
    (hy : y = '(' ∨ isNameStart y = true) (hu : startsWith (y :: s) importWord = false)
    (hs : ∀ at_, Yields (directive at_) (y :: s) x) :
    scanned ⟨'@' :: y :: s, file⟩ =
      ⟨(Cursor.start ('@' :: y :: s)).toEnd,
        [.pragma (.line 1 file), .write x 0, .pragma .hidden], [], []⟩ := by
  have hd := hs 0 (Cursor.start ('@' :: y :: s)).next [] (by simp [Cursor.start]) stops_nil
  have he : (Cursor.start ('@' :: y :: s)).next.advance (y :: s).length =
      (Cursor.start ('@' :: y :: s)).toEnd := by
    rw [next_advance, toEnd]
    rfl
  rw [he] at hd
  have hstep := step_directive ⟨'@' :: y :: s, file⟩ (.start ('@' :: y :: s))
    (c := .start ('@' :: y :: s)) rfl rfl hy hu hd
  have hflush := Draft.flush_pending (.start ('@' :: y :: s))
  rw [scanned, scan_step _ _ (List.cons_ne_nil _ _), hstep, scan_end (by simp), Draft.write]
  have hlast := Draft.flush_pending (((Draft.start ('@' :: y :: s)).emit ⟨'@' :: y :: s, file⟩
    (.start ('@' :: y :: s)) (.write x 0)).resume (Cursor.start ('@' :: y :: s)).toEnd)
  have hstart : (Draft.start ('@' :: y :: s)).pending = .start ('@' :: y :: s) := rfl
  rw [hstart] at hflush
  rw [hflush]
  have hoff : (Cursor.start ('@' :: y :: s)).offset = 0 := rfl
  rw [hoff]
  refine hlast.trans ?_
  simp only [Draft.emit, Draft.resume, Draft.start, Cursor.start, lineColumn_zero, List.nil_append]

/-- A template that is the text `t` writes `x` and nothing else. -/
def WritesAlone (t : List Char) (x : Expr) : Prop :=
  ∀ (file : String) (names : ClassNames),
    ((⟨t, file⟩ : Source).parse names).diagnostics = [] ∧
    ((⟨t, file⟩ : Source).parse names).tree.body names.execute =
      [.pragma (.line 1 file), .write x 0, .pragma .hidden]

theorem writesAlone_of_yields {y : Char} {s : List Char} {x : Expr}
    (hy : y = '(' ∨ isNameStart y = true) (hu : startsWith (y :: s) importWord = false)
    (hs : ∀ at_, Yields (directive at_) (y :: s) x) : WritesAlone ('@' :: y :: s) x := by
  intro file names
  rw [diagnostics_parse_eq_nil, body_parse, scanned_alone file hy hu hs]
  exact ⟨rfl, rfl⟩

/-! ## Steps of a value -/

section Values

variable {quote : Char} {c t : Cursor} {r : List Char} {x : Char}

theorem readValue_nil (quote : Char) (v : ValueDraft) (hc : c.rest = []) :
    readValue quote v c = (v, none) := by
  rw [readValue]
  split
  · rfl
  · rename_i h
    rw [hc] at h
    cases h

theorem readValue_cons (v : ValueDraft) (hc : c.rest = x :: r) :
    readValue quote v c =
      if x = quote then (v.close c, some c)
      else if isAsciiBlank x then readValue quote (v.close c) c.next
      else if x = '@' then
        if r.head? = some '@' then readValue quote (v.escape c) (c.advance 2)
        else if c.afterWord then readValue quote (v.push c '@') c.next
        else
          match directive c.offset c.next with
          | .ok (y, t) => readValue quote (v.express c t y) t
          | .error f => readValue quote ((v.fault f).push c '@') c.next
      else readValue quote (v.push c x) c.next := by
  rw [readValue]
  split
  · rename_i h
    rw [hc] at h
    cases h
  · rename_i h
    rw [hc] at h
    cases h
    refine if_congr Iff.rfl rfl (if_congr Iff.rfl rfl (if_congr Iff.rfl ?_ rfl))
    refine if_congr Iff.rfl rfl (if_congr Iff.rfl rfl ?_)
    -- The reader's own match also holds the proof that the directive does not move back.
    split
    · rename_i h
      simp only [h]
    · rename_i h
      simp only [h]

theorem readValue_close (v : ValueDraft) (hc : c.rest = quote :: r) :
    readValue quote v c = (v.close c, some c) := by
  rw [readValue_cons v hc, if_pos rfl]

theorem readValue_other (v : ValueDraft) (hc : c.rest = x :: r) (hq : x ≠ quote) (hx : x ≠ '@') :
    readValue quote v c =
      readValue quote (if isAsciiBlank x then v.close c else v.push c x) c.next := by
  rw [readValue_cons v hc, if_neg hq, if_neg hx]
  split <;> rfl

theorem readValue_escape (v : ValueDraft) (hc : c.rest = '@' :: '@' :: r) (hq : quote ≠ '@') :
    readValue quote v c = readValue quote (v.escape c) (c.advance 2) := by
  rw [readValue_cons v hc, if_neg hq.symm, if_neg (by decide), if_pos rfl]
  exact if_pos rfl

theorem readValue_sign (v : ValueDraft) (hc : c.rest = '@' :: r) (hq : quote ≠ '@')
    (hn : r.head? ≠ some '@') :
    readValue quote v c =
      if c.afterWord then readValue quote (v.push c '@') c.next
      else
        match directive c.offset c.next with
        | .ok (y, t) => readValue quote (v.express c t y) t
        | .error f => readValue quote ((v.fault f).push c '@') c.next := by
  rw [readValue_cons v hc, if_neg hq.symm, if_neg (by decide), if_pos rfl, if_neg hn]

theorem readValue_directive (v : ValueDraft) {y : Expr} (hc : c.rest = '@' :: r) (hq : quote ≠ '@')
    (hn : r.head? ≠ some '@') (ha : c.afterWord = false)
    (hx : directive c.offset c.next = .ok (y, t)) :
    readValue quote v c = readValue quote (v.express c t y) t := by
  rw [readValue_sign v hc hq hn, if_neg (by simp [ha]), hx]

theorem readValue_fault (v : ValueDraft) {f : Fault} (hc : c.rest = '@' :: r) (hq : quote ≠ '@')
    (hn : r.head? ≠ some '@') (ha : c.afterWord = false)
    (hx : directive c.offset c.next = .error f) :
    readValue quote v c = readValue quote ((v.fault f).push c '@') c.next := by
  rw [readValue_sign v hc hq hn, if_neg (by simp [ha]), hx]

theorem quotedStep_open {src : Source} {d : Draft} {before name nameEnd value : Cursor}
    {v : ValueDraft} (hv : readValue quote (.start value.next) value.next = (v, none)) :
    quotedStep src d before name nameEnd value quote =
      .leave { d with faults := d.faults ++ v.faults } before.toEnd := by
  unfold quotedStep
  rw [hv]

theorem quotedStep_closed {src : Source} {d : Draft} {before name nameEnd value close : Cursor}
    {v : ValueDraft} (hv : readValue quote (.start value.next) value.next = (v, some close)) :
    quotedStep src d before name nameEnd value quote =
      .stay (Draft.attribute { d with faults := d.faults ++ v.faults } src before name nameEnd
        value.next close v) close.next := by
  unfold quotedStep
  rw [hv]

/-- At a value that is never closed the scan writes all that is left. -/
theorem scanned_open {src : Source} {d : Draft} {before name nameEnd value : Cursor}
    {v : ValueDraft}
    (hd : VisitsTag src d before) (ha : AttributeHead before name nameEnd value quote)
    (hv : readValue quote (.start value.next) value.next = (v, none)) :
    scanned src = { d with faults := d.faults ++ v.faults }.flush before.toEnd := by
  have hstep := ha.tagStep_eq src d
  rw [quotedStep_open hv] at hstep
  rw [scanned_of_visitsTag hd, attributes_leave hstep, scan_end (by simp)]

end Values

/-! ## A tag with an attribute -/

/-- A tag with an attribute whose value starts with `k`: `<p a="` and `k`. -/
def attributeTag (k : List Char) : List Char := '<' :: 'p' :: ' ' :: 'a' :: '=' :: '"' :: k

theorem visitsTag_attributeTag (k : List Char) (file : String) :
    VisitsTag ⟨attributeTag k, file⟩ (.start (attributeTag k))
      ⟨2, some 'p', ' ' :: 'a' :: '=' :: '"' :: k⟩ := .enter .start rfl (by decide)

theorem attributeHead_attributeTag (k : List Char) :
    AttributeHead ⟨2, some 'p', ' ' :: 'a' :: '=' :: '"' :: k⟩
      ⟨3, some ' ', 'a' :: '=' :: '"' :: k⟩ ⟨4, some 'a', '=' :: '"' :: k⟩
      ⟨5, some '=', '"' :: k⟩ '"' where
  name_eq := rfl
  starts := ⟨'a', _, rfl, by decide⟩
  nameEnd_eq := rfl
  equals := rfl
  value_eq := rfl
  opens := rfl
  quote_eq := .inl rfl

/-! ## What a move passes -/

section

variable {src : Source} {d e : Draft} {c t : Cursor}

theorem spans_push {v : ValueDraft} {x : Char} {r : List Char} (y : Char) (hr : c.rest = x :: r)
    (hv : ∃ s, Spans v.gap s c) : ∃ s, Spans (v.push c y).gap s c.next := by
  obtain ⟨s, hs⟩ := hv
  rw [ValueDraft.gap_push]
  exact ⟨_, hs.trans (Spans.next hr)⟩

theorem spans_close {v : ValueDraft} (hv : ∃ s, Spans v.gap s c) :
    ∃ s, Spans (v.close c).gap s c := by
  unfold ValueDraft.close
  split
  · exact ⟨[], Spans.refl c⟩
  · exact hv

/-- The text of a value reaches from its start to its closing quote, and so does its last gap. -/
theorem spans_readValue {quote : Char} {v w : ValueDraft}
    (h : readValue quote v c = (w, some t)) (hv : ∃ s, Spans v.gap s c) :
    (∃ s, Spans c s t) ∧ ∃ s, Spans w.gap s t := by
  fun_induction readValue quote v c generalizing w with
  | case1 => simp at h
  | case2 v c r hr =>
    simp only [Prod.mk.injEq, Option.some.injEq] at h
    rw [← h.1, ← h.2]
    exact ⟨⟨[], Spans.refl c⟩, spans_close hv⟩
  | case3 v c x r hr _ hq hb ih =>
    obtain ⟨s, hs⟩ := spans_close hv
    obtain ⟨⟨u, hu⟩, hw⟩ := ih h ⟨_, hs.trans (Spans.next hr)⟩
    exact ⟨⟨_, (Spans.next hr).trans hu⟩, hw⟩
  | case4 v c r hn hr _ hq hb ih =>
    have hs : ∃ s, Spans (v.escape c).gap s (c.advance 2) := by
      obtain ⟨s, hs⟩ := hv
      have hg : (v.escape c).gap = v.gap := ValueDraft.gap_push v c '@'
      rw [hg]
      exact ⟨_, hs.trans (Spans.advance 2 c)⟩
    obtain ⟨⟨u, hu⟩, hw⟩ := ih h hs
    exact ⟨⟨_, (Spans.advance 2 c).trans hu⟩, hw⟩
  | case5 v c r hn ha hr _ hq hb ih =>
    obtain ⟨⟨u, hu⟩, hw⟩ := ih h (spans_push '@' hr hv)
    exact ⟨⟨_, (Spans.next hr).trans hu⟩, hw⟩
  | case6 v c r hn ha y s hs hl hr _ hq hb ih =>
    obtain ⟨z, u, hu, -⟩ := yields_of_directive hs
    obtain ⟨⟨u', hu'⟩, hw⟩ := ih h ⟨[], Spans.refl s⟩
    exact ⟨⟨_, (Spans.next hr).trans (hu.trans hu')⟩, hw⟩
  | case7 v c r hn ha f hf hr _ hq hb ih =>
    have hg : (v.fault f).gap = v.gap := rfl
    obtain ⟨⟨u, hu⟩, hw⟩ := ih h (spans_push '@' hr (hg ▸ hv))
    exact ⟨⟨_, (Spans.next hr).trans hu⟩, hw⟩
  | case8 v c x r hr _ hq hb hx ih =>
    obtain ⟨⟨u, hu⟩, hw⟩ := ih h (spans_push x hr hv)
    exact ⟨⟨_, (Spans.next hr).trans hu⟩, hw⟩

theorem Omits.spans {fs : List Fault} {is : List String} (h : Omits c t fs is) :
    ∃ s, Spans c s t := by
  cases h with
  | escape hr => exact ⟨_, Spans.next hr⟩
  | comment hs => exact ⟨_, hs⟩
  | openComment => exact ⟨_, Spans.toEnd c⟩
  | block hs => exact ⟨_, hs⟩
  | namedImport hs => exact ⟨_, hs⟩
  | emptyImport hs => exact ⟨_, hs⟩

theorem AttributeHead.spans_closed {before name nameEnd value close : Cursor} {quote : Char}
    {v : ValueDraft} (h : AttributeHead before name nameEnd value quote)
    (hv : readValue quote (.start value.next) value.next = (v, some close)) :
    ∃ s₁ s₂ s₃, Spans before s₁ name ∧ Spans name s₂ close ∧ Spans v.gap s₃ close ∧
      Spans close [quote] close.next := by
  obtain ⟨⟨s₁, h₁, -⟩, s₂, h₂, -⟩ := h.clear
  obtain ⟨s₃, h₃, -⟩ := h.clear_value
  obtain ⟨⟨s₄, h₄⟩, ⟨s₅, h₅⟩⟩ := spans_readValue hv ⟨[], Spans.refl _⟩
  obtain ⟨r, hr⟩ := List.head?_eq_some_iff.1 (length_of_readValue hv).2
  exact ⟨s₁, _, s₅, h₁, h₂.trans (h₃.trans h₄), h₅, Spans.next hr⟩

theorem spans_of_move (h : Move src (d, c) (e, t)) : ∃ s, Spans c s t := by
  cases h with
  | keep hr => exact ⟨_, Spans.next hr⟩
  | omits ho => exact ho.spans
  | write hr _ _ hx =>
    obtain ⟨y, s, hs, -⟩ := yields_of_directive hx
    exact ⟨_, (Spans.next hr).trans hs⟩
  | refuse hr => exact ⟨_, Spans.next hr⟩
  | dynamic ha hv =>
    obtain ⟨s₁, s₂, -, h₁, h₂, -, h₃⟩ := ha.spans_closed hv
    exact ⟨_, h₁.trans (h₂.trans h₃)⟩
  | abandon => exact ⟨_, Spans.toEnd c⟩

/-- A move makes the literal run longer, or writes it and starts a new one behind itself. The run
takes one character that may stand in it, or a directive with a fault, or an open value. -/
theorem run_of_move (h : Move src (d, c) (e, t)) :
    (e.pending = d.pending ∧ e.body = d.body ∧
      ((∃ x r, c.rest = x :: r ∧ t = c.next ∧ (x = '@' → c.last.any guardsAt = true)) ∨
        e.faults ≠ [] ∨ OpenValue src c ∧ t = c.toEnd)) ∨
    (e.pending = t ∧ ∃ ss, e.body = (d.flush c).body ++ ss ∧ ∀ s ∈ ss, s.literal? = none) := by
  cases h with
  | keep hr hx => exact .inl ⟨rfl, rfl, .inl ⟨_, _, hr, rfl, hx⟩⟩
  | omits => exact .inr ⟨rfl, [], (List.append_nil _).symm, by simp⟩
  | write => exact .inr ⟨rfl, _, rfl, by simp [Statement.literal?]⟩
  | refuse => exact .inl ⟨rfl, rfl, .inr (.inl (by simp))⟩
  | dynamic ha hv hdyn =>
    rw [Draft.attribute_dynamic hdyn]
    exact .inr ⟨rfl, _, rfl, by simp [Statement.literal?]⟩
  | abandon hopen => exact .inl ⟨rfl, rfl, .inr (.inr ⟨hopen, rfl⟩)⟩

theorem faults_of_move (h : Move src (d, c) (e, t)) : ∃ fs, e.faults = d.faults ++ fs := by
  cases h with
  | keep => exact ⟨[], (List.append_nil _).symm⟩
  | omits => exact ⟨_, rfl⟩
  | write => exact ⟨[], (List.append_nil _).symm⟩
  | refuse => exact ⟨_, rfl⟩
  | dynamic _ _ hv =>
    rw [Draft.attribute_dynamic hv]
    exact ⟨_, rfl⟩
  | abandon => exact ⟨_, rfl⟩

/-- The text in front of the literal run that is not written yet, and the run. -/
structure Located (src : Source) (d : Draft) (c : Cursor) (p s : List Char) : Prop where
  before : Spans (.start src.text) p d.pending
  run : Spans d.pending s c

namespace Located

variable {p s : List Char}

theorem start (src : Source) : Located src (.start src.text) (.start src.text) [] [] :=
  ⟨Spans.refl _, Spans.refl _⟩

theorem spans (h : Located src d c p s) : Spans (.start src.text) (p ++ s) c :=
  h.before.trans h.run

theorem offset (h : Located src d c p s) : c.offset = byteLength (p ++ s) :=
  h.spans.offset_start

theorem text_eq (h : Located src d c p s) : src.text = p ++ s ++ c.rest := h.spans.rest

theorem body_flush (h : Located src d c p s) :
    s = [] ∧ (d.flush c).body = d.body ∨
      s ≠ [] ∧ (d.flush c).body = d.body ++ [.literal (String.ofList s) (byteLength p)] := by
  rw [← h.before.offset_start]
  exact Draft.body_flush h.run

theorem move (h : ∃ p s, Located src d c p s) (hm : Move src (d, c) (e, t)) :
    ∃ p s, Located src e t p s := by
  obtain ⟨p, s, h⟩ := h
  obtain ⟨u, hu⟩ := spans_of_move hm
  rcases run_of_move hm with ⟨hp, -, -⟩ | ⟨hp, -⟩
  · exact ⟨p, s ++ u, hp ▸ h.before, hp ▸ h.run.trans hu⟩
  · exact ⟨p ++ s ++ u, [], hp ▸ h.spans.trans hu, hp ▸ Spans.refl t⟩

end Located

/-- What one move preserves, a run of moves preserves. -/
theorem invariant_of_moves (inv : Draft → Cursor → Prop) (hm : Moves src (d, c) (e, t))
    (hstep : ∀ {d c e t}, inv d c → Move src (d, c) (e, t) → inv e t) (h : inv d c) : inv e t := by
  have general : ∀ x y, Moves src x y → inv x.1 x.2 → inv y.1 y.2 := by
    intro x y hxy hx
    induction hxy with
    | refl => exact hx
    | tail _ hlast ih => exact hstep ih hlast
  exact general _ _ hm h

theorem located_of_moves (hm : Moves src (.start src.text, .start src.text) (e, t)) :
    ∃ p s, Located src e t p s :=
  invariant_of_moves (fun d c => ∃ p s, Located src d c p s) hm Located.move
    ⟨[], [], .start src⟩

end

end Sigil.Template
