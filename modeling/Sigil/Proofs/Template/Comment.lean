import Sigil.Proofs.Template.Parts
import Sigil.Proofs.Template.Shift

/-!
# Comments

Behind a comment a template is read as it is alone, exactly if the text in front of the comment ends
with no letter or digit (`readsBehind_comment_iff`). Behind a letter or digit an `@` belongs to an
address: the comment is not one, and its first two characters are written with the text in front of
them (`opens_of_afterWord`).
-/

namespace Sigil.Template

open Text Cursor

/-- A text and a comment behind it. -/
def commented (a : List Char) (t : CommentText) : List Char :=
  a ++ '@' :: '*' :: (t.chars ++ commentEnd)

/-- The literal that a text without directives is written as. -/
def literalRun (a : List Char) : List Statement :=
  if a = [] then [] else [.literal (String.ofList a) 0]

theorem getLast?_commented (a : List Char) (t : CommentText) :
    (commented a t).getLast? = some '@' := by
  have hsplit : commented a t = (a ++ '@' :: '*' :: (t.chars ++ ['*'])) ++ ['@'] := by
    simp [commented, commentEnd]
  rw [hsplit, List.getLast?_concat]

section

variable {src : Source} {d e : Draft} {c u : Cursor} {s : List Char}

theorem Draft.exists_flush (d : Draft) (c : Cursor) : ∃ ss, (d.flush c).body = d.body ++ ss := by
  unfold Draft.flush
  simp only
  split
  · exact ⟨[], (List.append_nil _).symm⟩
  · exact ⟨_, rfl⟩

theorem body_start_flush {a : List Char} (h : Spans (.start s) a c) :
    ((Draft.start s).flush c).body = literalRun a := by
  rcases Draft.body_flush (d := .start s) h with ⟨rfl, hb⟩ | ⟨ha, hb⟩
  · rw [hb, literalRun, if_pos rfl]
    rfl
  · rw [hb, literalRun, if_neg ha]
    rfl

/-! ## Text that is written with what follows it -/

/-- The first statement of a body writes the text `s` and what follows it. -/
def Opens (s : List Char) (body : List Statement) : Prop :=
  ∃ t rest, body = .literal (String.ofList t) 0 :: rest ∧ s <+: t

theorem Opens.append {body : List Statement} (h : Opens s body) (ss : List Statement) :
    Opens s (body ++ ss) := by
  obtain ⟨t, rest, rfl, ht⟩ := h
  exact ⟨t, rest ++ ss, rfl, ht⟩

/-- The text `s` is behind the scan, and either the run that begins with it is not written yet or it
is. -/
structure Covers (src : Source) (s : List Char) (d : Draft) (c : Cursor) : Prop where
  passed : ∃ t, Spans (.start src.text) t c ∧ s <+: t
  opens : d.pending = .start src.text ∧ d.body = [] ∨ Opens s d.body

theorem Covers.flush (h : Covers src s d c) (hs : s ≠ []) : Opens s (d.flush c).body := by
  obtain ⟨⟨t, ht, hst⟩, ⟨hpending, hbody⟩ | hopens⟩ := h
  · have hne : t ≠ [] := fun ht => hs (List.prefix_nil.1 (ht ▸ hst))
    rw [← hpending] at ht
    rw [Draft.flush_of_spans ht hne, hpending]
    exact ⟨t, [], by rw [hbody]; rfl, hst⟩
  · obtain ⟨ss, hss⟩ := d.exists_flush c
    rw [hss]
    exact hopens.append ss

theorem Covers.move (hs : s ≠ []) (h : Covers src s d c) (hm : Move src (d, c) (e, u)) :
    Covers src s e u := by
  obtain ⟨t, ht, hst⟩ := h.passed
  obtain ⟨r, hr⟩ := spans_of_move hm
  refine ⟨⟨t ++ r, ht.trans hr, hst.trans (List.prefix_append t r)⟩, ?_⟩
  rcases run_of_move hm with ⟨hpending, hbody, -⟩ | ⟨-, ss, hbody, -⟩
  · rw [hpending, hbody]
    exact h.opens
  · rw [hbody]
    exact .inr ((h.flush hs).append ss)

/-- What a scan that has written nothing has passed is written by the first statement. -/
theorem opens_of_visits (h : Visits src d c) (hs : Spans (.start src.text) s c) (hne : s ≠ [])
    (hpending : d.pending = .start src.text) (hbody : d.body = []) :
    Opens s (scanned src).body := by
  -- From here the scan makes moves; what covers `s` still does at their end, and is flushed there.
  obtain ⟨e, u, hm, -, hscan⟩ := moves_of_visits h
  have hcovers : Covers src s d c := ⟨⟨s, hs, List.prefix_rfl⟩, .inl ⟨hpending, hbody⟩⟩
  rw [scanned_of_visits h, hscan]
  exact (invariant_of_moves (Covers src s) hm (fun h hm => h.move hne hm) hcovers).flush hne

theorem visits_of_afterWord {r : List Char} (h : Visits src d c) (hw : c.afterWord = true)
    (hr : c.rest = '@' :: r) : Visits src d c.next := by
  have hstep : step src d c = (d, c.next) := by
    rw [step_at src d hr]
    unfold transition
    rw [if_pos hw]
  have := h.step (hr ▸ List.cons_ne_nil _ _)
  rwa [hstep] at this

end

/-! ## Templates behind a comment -/

section

variable {a : List Char} (t : CommentText) (src : Source) (names : ClassNames)

/-- The scan passes a text without directives and tags. -/
theorem visits_commented (ha : ∀ x ∈ a, x ≠ '@' ∧ x ≠ '<') :
    ∃ c, Spans (.start (commented a t ++ src.text)) a c ∧
      c.rest = '@' :: '*' :: (t.chars ++ commentEnd) ++ src.text ∧
      Visits (src.behind (commented a t)) (.start (commented a t ++ src.text)) c := by
  have hrest : (Cursor.start (commented a t ++ src.text)).rest =
      a ++ ('@' :: '*' :: (t.chars ++ commentEnd) ++ src.text) := List.append_assoc ..
  have hstart : Visits (src.behind (commented a t)) _ (.start (commented a t ++ src.text)) := .start
  obtain ⟨c, hs, hv⟩ := visits_pass hstart hrest ha
  exact ⟨c, hs, hs.behind hrest, hv⟩

theorem readsBehind_comment (ha : ∀ x ∈ a, x ≠ '@' ∧ x ≠ '<')
    (hw : ∀ x ∈ a.getLast?, x.isAlphanum = false) :
    ReadsBehind (commented a t) (literalRun a) src names := by
  obtain ⟨c, hs, hrest, hv⟩ := visits_commented t src ha
  have hlast : c.afterWord = false := hs.afterWord rfl hw
  obtain ⟨e, hcomment, hbehind⟩ := t.visits hv hlast hrest
  have hp : ∀ x ∈ (commented a t).getLast?, x.isAlphanum = false := by
    simp [getLast?_commented]
  have hbody : (((Draft.start (commented a t ++ src.text)).flush c).resume e).body =
      literalRun a := body_start_flush hs
  have hreads := readsBehind_of_visits names hp hbehind (hs.trans hcomment) rfl rfl rfl
  rwa [hbody] at hreads

/-- Behind a letter or digit the first two characters of a comment are text. -/
theorem opens_of_afterWord (ha : ∀ x ∈ a, x ≠ '@' ∧ x ≠ '<') {x : Char} (hx : a.getLast? = some x)
    (hword : x.isAlphanum = true) :
    Opens (a ++ ['@', '*'])
      (((src.behind (commented a t)).parse names).tree.body names.execute) := by
  obtain ⟨c, hs, hrest, hv⟩ := visits_commented t src ha
  have hlast : c.afterWord = true := by
    rw [afterWord, hs.last, hx]
    exact hword
  have hnext : c.next.rest = '*' :: (t.chars ++ commentEnd) ++ src.text := by
    rw [rest_next, hrest]
    rfl
  have hbehind := visits_other (visits_of_afterWord hv hlast hrest) hnext (by decide) (by simp)
  rw [body_parse]
  exact opens_of_visits hbehind (hs.trans ((Spans.next hrest).trans (Spans.next hnext)))
    (by simp) rfl rfl

theorem not_readsBehind_comment (ha : ∀ x ∈ a, x ≠ '@' ∧ x ≠ '<') {x : Char}
    (hx : a.getLast? = some x) (hword : x.isAlphanum = true) :
    ¬ ReadsBehind (commented a t) (literalRun a) src names := by
  intro h
  -- The first statement would have to write `a` and no more.
  obtain ⟨s, rest, hbody, hprefix⟩ := opens_of_afterWord t src names ha hx hword
  have hne : a ≠ [] := by
    rintro rfl
    cases hx
  rw [h.body, literalRun, if_neg hne] at hbody
  have htext : String.ofList a = String.ofList s := by simpa using (List.cons.inj hbody).1
  have hlength := hprefix.length_le
  rw [← String.ofList_injective htext, List.length_append, List.length_cons] at hlength
  omega

/-- Behind a text without directives and tags and a comment, a template says what it says alone:
the text is written first, every position is later by the length of what is in front and every line
by its line feeds, and no character of the comment is seen. This holds exactly if the text in front
ends with no letter or digit. -/
theorem readsBehind_comment_iff (ha : ∀ x ∈ a, x ≠ '@' ∧ x ≠ '<') :
    ReadsBehind (commented a t) (literalRun a) src names ↔
      ∀ x ∈ a.getLast?, x.isAlphanum = false := by
  refine ⟨fun h x hx => ?_, readsBehind_comment t src names ha⟩
  by_contra hword
  exact not_readsBehind_comment t src names ha hx (Bool.of_not_eq_false hword) h

/-- An `@` alone, behind a comment of two lines that holds a directive and a tag. -/
theorem fault_behind_comment :
    ∃ t : CommentText, t.chars = ['@', '(', 'x', '\n', '<', 'p', ' '] ∧
      (∀ x ∈ ['é', ' '], x ≠ '@' ∧ x ≠ '<') ∧
      ReadsBehind (commented ['é', ' '] t) (literalRun ['é', ' ']) ⟨['@'], "page"⟩ {} ∧
      ((Source.behind (commented ['é', ' '] t) ⟨['@'], "page"⟩).parse {}).diagnostics =
        [⟨.emptyExpression, .error, 14, 2, 6⟩] := by
  let t : CommentText := ⟨['@', '(', 'x', '\n', '<', 'p', ' '], by decide⟩
  let alone : Source := ⟨['@'], "page"⟩
  have ha : ∀ x ∈ ['é', ' '], x ≠ '@' ∧ x ≠ '<' := by simp
  have hreads := (readsBehind_comment_iff t alone {} ha).2 (by simp)
  have halone : (alone.parse {}).diagnostics = [⟨.emptyExpression, .error, 0, 1, 1⟩] := by
    rw [diagnostics_parse, scanned, scan_step _ _ (List.cons_ne_nil _ _), scan_end rfl]
    rfl
  refine ⟨t, rfl, ha, hreads, ?_⟩
  rw [hreads.diagnostics, halone]
  rfl

/-- Not behind every text: in `x@**@` the `@` belongs to an address. -/
theorem comment_behind_letter :
    ¬ ∀ (a : List Char) (t : CommentText) (src : Source) (names : ClassNames),
      (∀ x ∈ a, x ≠ '@' ∧ x ≠ '<') → ReadsBehind (commented a t) (literalRun a) src names := by
  intro h
  have ha : ∀ x ∈ ['x'], x ≠ '@' ∧ x ≠ '<' := by simp
  exact not_readsBehind_comment ⟨[], by decide⟩ ⟨['y'], "page"⟩ {} ha rfl (by decide)
    (h _ _ _ _ ha)

end

end Sigil.Template
