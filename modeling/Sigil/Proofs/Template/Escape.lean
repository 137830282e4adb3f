import Sigil.Proofs.Code.Unit
import Sigil.Proofs.Render.Literal
import Sigil.Proofs.Template.Draft
import Sigil.Proofs.Template.Crossing

/-!
# Doubled `@`s

Which texts come back when a template has each of their `@`s twice. The scan keeps in step with the
text as long as it takes the two `@`s of a pair together (`Keeping`). When it takes the first `@` of
a pair for text it is out of step: the second one then starts a directive, a comment, an import or a
code block, so that the text is lost or a fault is found (`not_writes_of_odd`).
-/

namespace Sigil.Template

open Text Cursor Relation

/-! ## What is left of a text -/

/-- How many characters of a text are no `@`. -/
def weight (s : List Char) : Nat := s.countP (· != '@')

theorem weight_append (s t : List Char) : weight (s ++ t) = weight s + weight t :=
  List.countP_append

theorem weight_doubled (t : List Char) : weight (doubled t) = weight t := by
  fun_induction doubled t with
  | case1 => rfl
  | case2 r ih =>
    simp only [weight, List.countP_cons] at ih ⊢
    simpa using ih
  | case3 x r hx ih =>
    simp only [weight, List.countP_cons] at ih ⊢
    rw [ih]

theorem weight_pos {x : Char} {s : List Char} (hx : x ∈ s) (hat : x ≠ '@') : 0 < weight s :=
  List.countP_pos_iff.2 ⟨x, hx, by simpa using hat⟩

/-- The characters that have been written or may still be. -/
def Draft.weight (d : Draft) : Nat :=
  Template.weight (written d.body) + Template.weight d.pending.rest

/-- The draft can still become the text `t`. -/
structure Sound (t : List Char) (d : Draft) : Prop where
  clean : d.faults = []
  literals : ∀ x ∈ d.body, x.literal?.isSome = true
  enough : weight t ≤ d.weight

/-- The draft is the text `t`. -/
def Draft.Writes (d : Draft) (t : List Char) : Prop := d.faults = [] ∧ WritesText d.body t

section

variable {src : Source} {d e : Draft} {c u : Cursor} {t : List Char}

theorem weight_of_closed {p s v : List Char} {ss : List Statement} (h : Located src d c p s)
    (hv : Spans c v u) (hp : e.pending = u) (hb : e.body = (d.flush c).body ++ ss)
    (hss : ∀ x ∈ ss, x.literal? = none) : e.weight + weight v = d.weight := by
  rw [Draft.weight, Draft.weight, hp, hb, written_append, written_of_none hss, List.append_nil,
    Draft.written_flush h.run, h.run.rest, hv.rest]
  simp only [weight_append]
  omega

theorem weight_of_move (h : ∃ p s, Located src d c p s) (hm : Move src (d, c) (e, u)) :
    e.weight ≤ d.weight := by
  obtain ⟨p, s, h⟩ := h
  rcases run_of_move hm with ⟨hp, hb, -⟩ | ⟨hp, ss, hb, hss⟩
  · rw [Draft.weight, Draft.weight, hp, hb]
  · obtain ⟨v, hv⟩ := spans_of_move hm
    have := weight_of_closed h hv hp hb hss
    omega

theorem sound_of_move (h : ∃ p s, Located src d c p s) (hm : Move src (d, c) (e, u))
    (he : Sound t e) : Sound t d where
  clean := by
    obtain ⟨fs, hfs⟩ := faults_of_move hm
    rw [he.clean] at hfs
    exact (List.append_eq_nil_iff.1 hfs.symm).1
  literals := by
    intro x hx
    refine he.literals x ?_
    obtain ⟨p, s, h⟩ := h
    rcases run_of_move hm with ⟨-, hb, -⟩ | ⟨-, ss, hb, -⟩
    · rwa [hb]
    · rw [hb]
      exact List.mem_append_left _ (Draft.mem_flush_of_mem h.run hx)
  enough := Nat.le_trans he.enough (weight_of_move h hm)

theorem sound_of_moves (h : ∃ p s, Located src d c p s) (hm : Moves src (d, c) (e, u))
    (he : Sound t e) : Sound t d := by
  by_contra hd
  have keeps := invariant_of_moves (fun d c => (∃ p s, Located src d c p s) ∧ ¬ Sound t d) hm
    (fun ⟨hl, hs⟩ hmove => ⟨Located.move hl hmove, fun he => hs (sound_of_move hl hmove he)⟩)
    ⟨h, hd⟩
  exact keeps.2 he

theorem located_of_visits (hd : Visits src d c) : ∃ p s, Located src d c p s :=
  located_of_moves (moves_to_visit hd)

/-- Every state on the way to the text can still become it. -/
theorem sound_of_writes (hd : Visits src d c) (h : (scan src d c).Writes t) : Sound t d := by
  obtain ⟨e, u, hm, hu, he⟩ := moves_of_visits hd
  obtain ⟨p, s, hl⟩ := located_of_moves ((moves_to_visit hd).trans hm)
  rw [he] at h
  obtain ⟨hclean, hlit, ht⟩ := h
  refine sound_of_moves (located_of_visits hd) hm
    ⟨hclean, fun x hx => hlit x (Draft.mem_flush_of_mem hl.run hx), ?_⟩
  rw [← ht, Draft.written_flush hl.run, Draft.weight, hl.run.rest, hu, List.append_nil,
    weight_append]

theorem weight_of_visits (htext : src.text = doubled t) (hd : Visits src d c) :
    d.weight ≤ weight t := by
  have first : (Draft.start src.text).weight ≤ weight t := by
    have hw : (Draft.start src.text).weight = 0 + weight src.text := rfl
    rw [hw, htext, weight_doubled, Nat.zero_add]
  have keeps := invariant_of_moves
    (fun d c => (∃ p s, Located src d c p s) ∧ d.weight ≤ weight t) (moves_to_visit hd)
    (fun ⟨hl, hw⟩ hmove => ⟨Located.move hl hmove, Nat.le_trans (weight_of_move hl hmove) hw⟩)
    ⟨⟨[], [], .start src⟩, first⟩
  exact keeps.2

/-! ## Out of step -/

/-- What is left out behind an `@` without a fault is more than the `@`. -/
theorem weight_of_omits {is : List String} {v : List Char} (h : Omits c u [] is) (hv : Spans c v u)
    (hat : c.next.rest.head? ≠ some '@') : 0 < weight v := by
  cases h with
  | escape hr =>
    rw [rest_next, hr] at hat
    exact absurd rfl hat
  | comment hs =>
    rw [← hv.between, hs.between]
    exact weight_pos (x := '*') (by simp) (by decide)
  | namedImport hs =>
    rw [← hv.between, hs.between]
    exact weight_pos (x := 'u') (by simp [importWord]) (by decide)

theorem scan_at (src : Source) (d : Draft) {r : List Char} (hc : c.rest = '@' :: r) :
    scan src d c = scan src (transition src d c).1 (transition src d c).2 := by
  rw [scan_step src d (hc ▸ List.cons_ne_nil _ _), step_at src d hc]

theorem visits_at {r : List Char} (hd : Visits src d c) (hc : c.rest = '@' :: r) :
    Visits src (transition src d c).1 (transition src d c).2 := by
  rw [← step_at src d hc]
  exact hd.step (hc ▸ List.cons_ne_nil _ _)

/-- A single `@` that is no text does not give the text back, whatever it introduces. -/
theorem not_writes_of_single (htext : src.text = doubled t) {r : List Char} (hd : Visits src d c)
    (hc : c.rest = '@' :: r) (hw : c.afterWord = false) (hat : c.next.rest.head? ≠ some '@') :
    ¬ (scan src d c).Writes t := by
  intro h
  rw [scan_at src d hc] at h
  have hs := sound_of_writes (visits_at hd hc) h
  have ht : Transits src d c _ := transits_transition hc
  generalize transition src d c = y at ht hs
  cases ht with
  | word hword => exact absurd (hw.symm.trans hword) (by decide)
  | escape _ hr =>
    rw [rest_next, hr] at hat
    exact hat rfl
  | @omits e fs is ho =>
    obtain ⟨v, hv⟩ := ho.spans
    obtain ⟨p, s, hl⟩ := located_of_visits hd
    have hfs : fs = [] := (List.append_eq_nil_iff.1 hs.clean).2
    subst hfs
    have hpos := weight_of_omits ho hv hat
    have hmissing := weight_of_closed (e := d.omit c e [] is) hl hv rfl (List.append_nil _).symm
      (by simp)
    have hle := weight_of_visits htext hd
    have henough : weight t ≤ (d.omit c e [] is).weight := hs.enough
    omega
  | @write e x =>
    have := hs.literals (.write x c.offset) (by simp [Draft.write, Draft.emit, Draft.resume])
    cases this
  | refuse => exact absurd hs.clean (by simp)

/-- The second `@` of a pair does not give the text back when the first one is text. -/
theorem not_writes_of_odd (htext : src.text = doubled t) {r : List Char} (hd : Visits src d c)
    (hc : c.rest = '@' :: doubled r) (hw : c.afterWord = false) : ¬ (scan src d c).Writes t := by
  have hn : c.next.rest = doubled r := by simp [hc]
  induction r generalizing d c with
  | nil => exact not_writes_of_single htext hd hc hw (by rw [hn]; decide)
  | cons x r ih =>
    by_cases hx : x = '@'
    · subst hx
      rw [doubled_at] at hc
      have hv := visits_at hd hc
      have hr : (c.advance 2).rest = '@' :: doubled r := by simp [hc]
      have hlast : (c.advance 2).afterWord = false := by
        rw [afterWord, last_advance_two hc]
        rfl
      rw [scan_at src d hc, transition_escape src d hc hw]
      rw [transition_escape src d hc hw] at hv
      exact ih hv hr hlast (by simp [hc])
    · exact not_writes_of_single htext hd hc hw (by rw [hn, head?_doubled]; simpa using hx)

/-! ## In step -/

/-- What has been written, the literal run and what is left are the text. -/
structure Keeping (t : List Char) (d : Draft) (c : Cursor) (r : List Char) : Prop where
  rest : c.rest = doubled r
  clean : d.faults = []
  literals : ∀ x ∈ d.body, x.literal?.isSome = true
  text : ∃ s, Spans d.pending s c ∧ written d.body ++ s ++ r = t

namespace Keeping

variable {r : List Char}

theorem pass {s : List Char} (h : Keeping t d c (s ++ r)) (hs : Spans c s u)
    (hu : u.rest = doubled r) : Keeping t d u r := by
  obtain ⟨v, hv, ht⟩ := h.text
  refine ⟨hu, h.clean, h.literals, v ++ s, hv.trans hs, ?_⟩
  rw [← ht]
  simp only [List.append_assoc]

theorem passes {z z' : Zone} {r' : List Char} (h : Keeping t d c r)
    (hp : Passes z c r z' u r') : Keeping t d u r' := by
  obtain ⟨s, -, hr, hs⟩ := hp.spans
  exact (hr ▸ h).pass hs hp.rest

theorem flush (h : Keeping t d c r) : (∀ x ∈ (d.flush c).body, x.literal?.isSome = true) ∧
    written (d.flush c).body ++ r = t := by
  obtain ⟨s, hs, ht⟩ := h.text
  refine ⟨fun x hx => ?_, by rw [Draft.written_flush hs, ht]⟩
  rcases Draft.mem_flush hs hx with hx | hx
  · exact h.literals x hx
  · exact hx

/-- Of two `@`s the second one is kept. -/
theorem escape (h : Keeping t d c ('@' :: r)) :
    Keeping t ((d.flush c).resume c.next) (c.advance 2) r := by
  have hr : c.next.rest = '@' :: doubled r := by simp [h.rest, doubled_at]
  refine ⟨by simp [h.rest, doubled_at], h.clean, h.flush.1, ['@'], ?_, ?_⟩
  · rw [← next_next]
    exact Spans.next hr
  · rw [List.append_assoc]
    exact h.flush.2

theorem writes (h : Keeping t d c []) : (d.flush c).Writes t :=
  ⟨h.clean, h.flush.1, by simpa using h.flush.2⟩

end Keeping

/-- How a value of a doubled text is read: it holds no expression and ends at its first quote, if
there is one. What has been read of it is in step with the text. -/
inductive ValueRead (q : Char) (v : ValueDraft) (c : Cursor) (r : List Char) : Prop where
  | unclosed {w : ValueDraft} : q ∉ r → readValue q v c = (w, none) → w.faults = v.faults →
      ValueRead q v c r
  | closed {s r' : List Char} {w : ValueDraft} {e : Cursor} : r = s ++ q :: r' → q ∉ s →
      readValue q v c = (w, some e) → w.faults = v.faults → w.isDynamic = v.isDynamic →
      (∀ (t : List Char) (d : Draft), Keeping t (d.plain v) c r →
        Keeping t (d.plain w) e (q :: r')) → ValueRead q v c r

theorem ValueRead.cons {q x : Char} {v v' : ValueDraft} {c' : Cursor} {r : List Char}
    (h : ValueRead q v' c' r) (hx : x ≠ q) (hread : readValue q v c = readValue q v' c')
    (hf : v'.faults = v.faults) (hdyn : v'.isDynamic = v.isDynamic)
    (hkeep : ∀ (t : List Char) (d : Draft), Keeping t (d.plain v) c (x :: r) →
      Keeping t (d.plain v') c' r) : ValueRead q v c (x :: r) := by
  cases h with
  | unclosed hn hw hwf =>
    exact .unclosed (by simp [hx.symm, hn]) (hread.trans hw) (hwf.trans hf)
  | @closed s r' w e hr hs hw hwf hwd hwk =>
    exact .closed (s := x :: s) (by rw [hr, List.cons_append]) (by simp [hx.symm, hs])
      (hread.trans hw) (hwf.trans hf) (hwd.trans hdyn) fun t d h => hwk t d (hkeep t d h)

theorem valueRead_of_doubled {q : Char} (hq : q ≠ '@') {r : List Char} (v : ValueDraft)
    (hc : c.rest = doubled r) : ValueRead q v c r := by
  induction r generalizing v c with
  | nil => exact .unclosed List.not_mem_nil (readValue_nil q v hc) rfl
  | cons x r ih =>
    by_cases hat : x = '@'
    · subst hat
      rw [doubled_at] at hc
      refine .cons (ih (v.escape c) (c := c.advance 2) (by simp [hc])) hq.symm
        (readValue_escape v hc hq) (ValueDraft.faults_push ..) (ValueDraft.isDynamic_escape ..)
        fun t d h => ?_
      rw [plain_escape]
      exact h.escape
    · rw [doubled_cons hat] at hc
      have hn : c.next.rest = doubled r := by simp [hc]
      by_cases hx : x = q
      · subst hx
        refine .closed (s := []) rfl List.not_mem_nil (readValue_close v hc)
          (ValueDraft.faults_close ..) (ValueDraft.isDynamic_close ..) fun t d h => ?_
        rwa [plain_close]
      · refine .cons (ih _ hn) hx (readValue_other v hc hx hat) ?_ ?_ fun t d h => ?_
        · split <;> simp
        · split <;> simp
        · have hp : d.plain (if isAsciiBlank x then v.close c else v.push c x) = d.plain v := by
            split <;> simp
          rw [hp]
          exact h.pass (s := [x]) (Spans.next hc) hn

/-! ## The scan of a doubled text -/

/-- From the states in step that are fewer than `n` characters away from the end, `escapable` says
whether the text comes back. -/
def Decides (src : Source) (t : List Char) (z : Zone) (visits : Draft → Cursor → Prop) (n : Nat) :
    Prop :=
  ∀ d c r, r.length < n → visits d c → Keeping t d c r →
    ((scanned src).Writes t ↔ escapable z c.last r = true)

theorem passes_tagName {x : Char} {r : List Char} (hc : c.rest = '<' :: doubled (x :: r))
    (hx : x.isAlpha = true) :
    ∃ r', Passes .markup c ('<' :: x :: r) .tag (c.next.skipWhile isTagNamePart) r' := by
  have hat : x ≠ '@' := by
    rintro rfl
    exact absurd hx (by decide)
  have hd : c.rest = doubled ('<' :: x :: r) := hc
  rw [doubled_cons hat] at hc
  obtain ⟨t, ht, p⟩ := crosses_tagName hc hx
  exact p.passes ht.at_notMem hd

section

variable {n : Nat} {r : List Char}

theorem decides_at (htext : src.text = doubled t)
    (ih : Decides src t .markup (Visits src) n) (hn : r.length < n) (hd : Visits src d c)
    (h : Keeping t d c ('@' :: r)) :
    (scanned src).Writes t ↔ escapable .markup c.last ('@' :: r) = true := by
  have hc : c.rest = '@' :: '@' :: doubled r := h.rest
  have hescapable : escapable .markup c.last ('@' :: r) =
      (!c.afterWord && escapable .markup (some '@') r) := rfl
  rw [hescapable]
  by_cases hw : c.afterWord = true
  · have hnext := visits_at hd hc
    rw [transition, if_pos hw] at hnext
    have hlast : c.next.afterWord = false := by
      rw [afterWord, last_next hc]
      rfl
    rw [scanned_of_visits hnext, hw]
    exact iff_of_false (not_writes_of_odd htext (r := r) hnext (by simp [hc]) hlast) (by simp)
  · rw [Bool.not_eq_true] at hw
    have hnext := visits_at hd hc
    rw [transition_escape src d hc hw] at hnext
    rw [ih _ _ r hn hnext h.escape, last_advance_two hc, hw, Bool.not_false, Bool.true_and]

theorem decides_tagName {x : Char} (ih : Decides src t .tag (VisitsTag src) n)
    (hn : r.length + 1 < n) (hx : x.isAlpha = true) (hd : Visits src d c)
    (h : Keeping t d c ('<' :: x :: r)) :
    (scanned src).Writes t ↔ escapable .markup c.last ('<' :: x :: r) = true := by
  have hat : x ≠ '@' := by
    rintro rfl
    exact absurd hx (by decide)
  have hc : c.rest = '<' :: doubled (x :: r) := h.rest
  obtain ⟨r', p⟩ := passes_tagName hc hx
  have hlt := p.length_lt (Nat.lt_of_le_of_lt (length_skipWhile ..)
    (length_next_lt (by rw [hc]; simp)))
  rw [doubled_cons hat] at hc
  simp only [List.length_cons] at hlt
  rw [ih _ _ r' (by omega) (.enter hd hc hx) (h.passes p), p.zone]

theorem decides_other {x : Char} (ih : Decides src t .markup (Visits src) n) (hn : r.length < n)
    (hat : x ≠ '@') (hx : x = '<' → ∀ y ∈ r.head?, y.isAlpha = false) (hd : Visits src d c)
    (h : Keeping t d c (x :: r)) :
    (scanned src).Writes t ↔ escapable .markup c.last (x :: r) = true := by
  have hc := h.rest
  rw [doubled_cons hat] at hc
  have hnext : Visits src d c.next := by
    have := hd.step (hc ▸ List.cons_ne_nil x _)
    rwa [step_other src d hc hat (by rwa [head?_doubled])] at this
  have hzone : x = '<' → ∀ y ∈ (doubled r).head?, y.isAlpha = false := by rwa [head?_doubled]
  obtain ⟨r', p⟩ := (crosses_other hc hzone).passes (by simpa using hat.symm) h.rest
  have hlt := p.length_lt (length_next_lt (by rw [hc]; simp))
  rw [List.length_cons] at hlt
  rw [ih _ _ r' (by omega) hnext (h.passes p), p.zone]

theorem decides_markup (htext : src.text = doubled t)
    (hmarkup : Decides src t .markup (Visits src) n) (htag : Decides src t .tag (VisitsTag src) n) :
    Decides src t .markup (Visits src) (n + 1) := by
  intro d c r hn hd h
  cases r with
  | nil =>
    rw [scanned_of_visits hd, scan_end h.rest]
    exact iff_of_true h.writes rfl
  | cons x r =>
    rw [List.length_cons] at hn
    by_cases hat : x = '@'
    · subst hat
      exact decides_at htext hmarkup (by omega) hd h
    · by_cases htagged : x = '<' ∧ ∃ y k, r = y :: k ∧ y.isAlpha = true
      · obtain ⟨rfl, y, k, rfl, hy⟩ := htagged
        rw [List.length_cons] at hn
        exact decides_tagName htag (by omega) hy hd h
      · refine decides_other hmarkup (by omega) hat (fun hx y hy => ?_) hd h
        by_contra halpha
        obtain ⟨k, hk⟩ := List.head?_eq_some_iff.1 hy
        exact htagged ⟨hx, y, k, hk, Bool.of_not_eq_false halpha⟩

/-- A value that is never closed is copied with all its `@`s doubled. -/
theorem decides_open {name nameEnd value : Cursor} {q : Char} {w : ValueDraft} {r' : List Char}
    (hd : VisitsTag src d c) (ha : AttributeHead c name nameEnd value q)
    (h : Keeping t d c r) (p : Passes .tag c r (.value q) value.next r')
    (hw : readValue q (.start value.next) value.next = (w, none)) (hf : w.faults = [])
    (hq : q ∉ r') : (scanned src).Writes t ↔ escapable .tag c.last r = true := by
  obtain ⟨s, hs, hr, hsp⟩ := p.spans
  obtain ⟨v, hv, ht⟩ := h.text
  have hrun : Spans d.pending (v ++ c.rest) c.toEnd := hv.trans (Spans.toEnd c)
  have hbody := Draft.written_flush hrun
  rw [scanned_open hd ha hw, p.zone, escapable_open hq, ← doubled_eq_self_iff, hf, List.append_nil]
  have htext : written (d.flush c.toEnd).body = t ↔ doubled r' = r' := by
    rw [hbody, ← ht, h.rest, hr, doubled_append hs]
    simp
  rw [← htext]
  refine ⟨fun hwrites => hwrites.2.2, fun heq => ⟨h.clean, fun x hx => ?_, heq⟩⟩
  rcases Draft.mem_flush hrun hx with hx | hx
  · exact h.literals x hx
  · exact hx

theorem decides_value (ih : Decides src t .tag (VisitsTag src) n) (hn : r.length < n + 1)
    (hd : VisitsTag src d c) (h : Keeping t d c r) {name nameEnd value : Cursor} {q : Char}
    {r' : List Char} (ha : AttributeHead c name nameEnd value q)
    (p : Passes .tag c r (.value q) value.next r') :
    (scanned src).Writes t ↔ escapable .tag c.last r = true := by
  cases valueRead_of_doubled ha.ne_at (.start value.next) p.rest with
  | unclosed hq hw hf => exact decides_open hd ha h p hw hf hq
  | @closed s r'' w e hr hs hw hf hdyn hkeep =>
    have hstep : tagStep src d c = .stay (d.plain w) e.next := by
      have hstatic : ¬ w.isDynamic = true := by
        rw [hdyn]
        exact Bool.false_ne_true
      rw [ha.tagStep_eq, quotedStep_closed hw, Draft.attribute, if_neg hstatic]
      rfl
    have hvalue := h.passes p
    rw [← plain_start d value.next] at hvalue
    have hkept := hkeep t d hvalue
    have he : e.rest = q :: doubled r'' := by rw [hkept.rest, doubled_cons ha.ne_at]
    have hnext : Keeping t (d.plain w) e.next r'' :=
      hkept.pass (s := [q]) (Spans.next he) (by simp [he])
    have hlast : e.next.last = some q := last_next he
    obtain ⟨s', -, hr', -⟩ := p.spans
    have hlen : r''.length < n := by
      rw [hr', hr] at hn
      simp only [List.length_append, List.length_cons] at hn
      omega
    rw [ih _ _ r'' hlen (.stay hd hstep) hnext, p.zone, hr, escapable_closed ha.ne_at hs, hlast]

theorem decides_tag (hmarkup : Decides src t .markup (Visits src) (n + 1))
    (ih : Decides src t .tag (VisitsTag src) n) : Decides src t .tag (VisitsTag src) (n + 1) := by
  intro d c r hn hd h
  rcases passes_tagStep src d h.rest with ⟨e, r', p, hstep⟩ | ⟨e, r', p, hstep⟩ |
    ⟨name, nameEnd, value, q, r', ha, p⟩
  · obtain ⟨s, -, hr, -⟩ := p.spans
    have hle : r'.length ≤ r.length := by
      rw [hr, List.length_append]
      omega
    have hnext := visits_of_visitsTag hd
    rw [attributes_leave hstep] at hnext
    rw [hmarkup _ _ r' (by omega) hnext (h.passes p), p.zone]
  · have hlt := p.length_lt ((left_tagStep src d c).2 hstep)
    rw [ih _ _ r' (by omega) (.stay hd hstep) (h.passes p), p.zone]
  · exact decides_value ih hn hd h ha p

theorem decides (htext : src.text = doubled t) (n : Nat) :
    Decides src t .markup (Visits src) n ∧ Decides src t .tag (VisitsTag src) n := by
  induction n with
  | zero =>
    refine ⟨?_, ?_⟩ <;>
    · intro d c r h
      exact absurd h (Nat.not_lt_zero _)
  | succ n ih =>
    have hmarkup := decides_markup htext ih.1 ih.2
    exact ⟨hmarkup, decides_tag hmarkup ih.2⟩

end

/-- A text comes back from its doubled form exactly when it is escapable. -/
theorem scanned_doubled_writes_iff (t : List Char) (file : String) :
    (scanned ⟨doubled t, file⟩).Writes t ↔ escapable .markup none t = true := by
  have first : Keeping t (.start (doubled t)) (.start (doubled t)) t :=
    ⟨rfl, rfl, by simp [Draft.start], [], Spans.refl _, rfl⟩
  have h : Decides ⟨doubled t, file⟩ t .markup (Visits ⟨doubled t, file⟩) (t.length + 1) :=
    (decides rfl (t.length + 1)).1
  exact h _ _ t (Nat.lt_succ_self _) .start first

end

/-- The parse of the doubled text gives the text back, and nothing else, exactly when it is
escapable. A unit of such a template renders as the text in every scope. -/
theorem escape_round_trip_iff (t : List Char) (file : String) (names : ClassNames) :
    let parsed := (⟨doubled t, file⟩ : Source).parse names
    (parsed.diagnostics = [] ∧ WritesText (parsed.tree.body names.execute) t ↔
      escapable .markup none t = true) ∧
    (escapable .markup none t = true →
      ∀ (base : Code.BaseType) (model : ModelType) (u : Code.SourceUnit),
        Code.SourceUnit.of names parsed.tree base model = .ok u →
        ∀ s : Render.Scope, u.program.execute abiVersion s = .ok (String.ofList t)) := by
  intro parsed
  have hiff : parsed.diagnostics = [] ∧ WritesText (parsed.tree.body names.execute) t ↔
      escapable .markup none t = true := by
    rw [diagnostics_parse_eq_nil, body_parse]
    exact scanned_doubled_writes_iff t file
  refine ⟨hiff, fun h base model u hu s => ?_⟩
  rw [Code.program_parse hu]
  exact Render.execute_literals (hiff.2 h).2 s

/-- A doubled `@` behind a letter is read as a directive. -/
theorem doubled_after_letter :
    ¬ ∀ (t : List Char) (file : String) (names : ClassNames),
      ((⟨doubled t, file⟩ : Source).parse names).diagnostics = [] ∧
      WritesText (((⟨doubled t, file⟩ : Source).parse names).tree.body names.execute) t := by
  intro h
  obtain ⟨hd, hw⟩ := h ['a', '@', 'b'] "page" {}
  rw [diagnostics_parse_eq_nil] at hd
  rw [body_parse] at hw
  have := (scanned_doubled_writes_iff ['a', '@', 'b'] "page").1 ⟨hd, hw⟩
  exact absurd this (by decide)

end Sigil.Template
