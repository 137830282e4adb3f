import Sigil.Proofs.Template.Draft
import Sigil.Proofs.Text.Position

/-!
# Templates behind a text

What the readers give if a text `p` stands in front of the template: every offset counts the bytes of
`p` and every line its line feeds. Nothing else is different, as long as no letter or digit ends `p`:
the only thing that a reader sees of the text in front is its last character. There is one equation
for each reader, and with them the scan goes on behind a text as it goes through the template alone
(`scan_behind`). So the template is read as it is alone if nothing is pending where it begins
(`readsBehind_of_visits`).
-/

namespace Sigil.Template

open Text Cursor

/-! ## What is read, behind a text -/

section

variable (p : List Char)

def Cursor.shift (c : Cursor) : Cursor := ⟨byteLength p + c.offset, c.last.or p.getLast?, c.rest⟩

def Placed.shift (t : Placed) : Placed := ⟨t.text, byteLength p + t.position⟩

def Fault.shift (f : Fault) : Fault := ⟨f.cause, byteLength p + f.position⟩

def Fragment.shift : Fragment → Fragment
  | .literal lead value => .literal (lead.shift p) (value.shift p)
  | .dynamic lead x position => .dynamic (lead.shift p) x (byteLength p + position)

def AttributeWrite.shift (w : AttributeWrite) : AttributeWrite where
  name := w.name
  opening := w.opening.shift p
  closing := w.closing.shift p
  fragments := w.fragments.map (Fragment.shift p)

/-- Only the pragmas for lines say where they come from. -/
def Pragma.shift : Pragma → Pragma
  | .line n file => .line (lineFeeds p + n) file
  | .hidden => .hidden
  | .default => .default

def Statement.shift : Statement → Statement
  | .literal text position => .literal text (byteLength p + position)
  | .write x position => .write x (byteLength p + position)
  | .attribute w => .attribute (w.shift p)
  | .pragma x => .pragma (x.shift p)
  | .snippet text => .snippet text

def Diagnostic.shift (d : Diagnostic) : Diagnostic :=
  let (line, column) := lineColumnBehind p (d.line, d.column)
  ⟨d.cause, d.severity, byteLength p + d.position, line, column⟩

def Source.behind (src : Source) : Source := ⟨p ++ src.text, src.file⟩

/-- A reading behind a text: a fault is shifted, and so is a result, by `f`. -/
def shiftOutcome {α : Type} (f : α → α) : Except Fault α → Except Fault α
  | .ok x => .ok (f x)
  | .error fault => .error (fault.shift p)

def ValueDraft.shift (v : ValueDraft) : ValueDraft where
  gap := v.gap.shift p
  word := v.word.map (Prod.map (Cursor.shift p) id)
  fragments := v.fragments.map (Fragment.shift p)
  escapes := v.escapes.map (Cursor.shift p)
  faults := v.faults.map (Fault.shift p)

/-- What has been read behind a text, where `d` has been read of the template, and `before` of the
text. -/
def Draft.behind (d before : Draft) : Draft where
  pending := d.pending.shift p
  body := before.body ++ d.body.map (Statement.shift p)
  faults := before.faults ++ d.faults.map (Fault.shift p)
  imports := before.imports ++ d.imports

def TagStep.behind (before : Draft) : TagStep → TagStep
  | .leave d c => .leave (d.behind p before) (c.shift p)
  | .stay d c => .stay (d.behind p before) (c.shift p)

end

section

variable {p : List Char}

/-! ## Places -/

namespace Cursor

@[simp] theorem rest_shift (c : Cursor) : (c.shift p).rest = c.rest := rfl

@[simp] theorem offset_shift (c : Cursor) : (c.shift p).offset = byteLength p + c.offset := rfl

@[simp] theorem advance_shift (n : Nat) (c : Cursor) :
    (c.shift p).advance n = (c.advance n).shift p := by
  simp only [advance, shift, Nat.add_assoc, Option.or_assoc]

@[simp] theorem next_shift (c : Cursor) : (c.shift p).next = c.next.shift p := advance_shift 1 c

@[simp] theorem toEnd_shift (c : Cursor) : (c.shift p).toEnd = c.toEnd.shift p :=
  advance_shift _ c

@[simp] theorem skipWhile_shift (q : Char → Bool) (c : Cursor) :
    (c.shift p).skipWhile q = (c.skipWhile q).shift p := advance_shift _ c

@[simp] theorem between_shift (a b : Cursor) : (a.shift p).between (b.shift p) = a.between b := rfl

@[simp] theorem placed_shift (a b : Cursor) :
    (a.shift p).placed (b.shift p) = (a.placed b).shift p := rfl

/-- The last character of the text in front is seen at the beginning of the template only. -/
theorem afterWord_shift (hp : ∀ x ∈ p.getLast?, x.isAlphanum = false) (c : Cursor) :
    (c.shift p).afterWord = c.afterWord := by
  have hany : p.getLast?.any Char.isAlphanum = false := by
    cases hlast : p.getLast? with
    | none => rfl
    | some x => exact hp x hlast
  cases h : c.last with
  | none => simp [afterWord, shift, h, hany]
  | some x => simp [afterWord, shift, h]

end Cursor

/-! ## Directives -/

theorem closeParen_shift (c : Cursor) :
    closeParen (c.shift p) = shiftOutcome p (Cursor.shift p) (closeParen c) := by
  unfold closeParen
  simp only [skipWhile_shift, rest_shift, next_shift]
  split <;> rfl

/-- A reading behind a text: the place behind the expression is shifted. -/
abbrev Reading.shift (p : List Char) : Reading → Reading :=
  shiftOutcome p (Prod.map id (Cursor.shift p))

theorem readString_shift (c : Cursor) :
    readString (c.shift p) = Reading.shift p (readString c) := by
  unfold readString
  simp only [next_shift, rest_shift, advance_shift]
  split <;> rfl

theorem readNumber_shift (c : Cursor) :
    readNumber (c.shift p) = Prod.map id (Cursor.shift p) (readNumber c) := by
  simp only [readNumber, next_shift, rest_shift, advance_shift, between_shift, Prod.map, id]

theorem readPath_shift (c : Cursor) :
    readPath (c.shift p) = Prod.map id (Cursor.shift p) (readPath c) := by
  simp only [readPath, rest_shift, advance_shift, between_shift, Prod.map, id]

theorem Helper.apply_shift (f : Helper) (at_ : Nat) (x : Expr) :
    f.apply (byteLength p + at_) x = shiftOutcome p id (f.apply at_ x) := by
  cases f with
  | raw => rfl
  | encode => rfl
  | url => cases x <;> rfl

theorem nameEnd_shift (c : Cursor) : nameEnd (c.shift p) = (nameEnd c).shift p :=
  skipWhile_shift isNamePart c

/-- A name is read behind a text as it is without one, if shorter expressions are. -/
theorem readNamed_shift_of {c : Cursor}
    (ih : ∀ d : Cursor, d.rest.length < c.rest.length →
      readExpr (d.shift p) = Reading.shift p (readExpr d)) :
    readNamed (c.shift p) = Reading.shift p (readNamed c) := by
  cases hword : keyword? (c.rest.takeWhile isNamePart) with
  | some x =>
    have hword' : keyword? ((c.shift p).rest.takeWhile isNamePart) = some x := hword
    rw [readNamed_keyword hword, readNamed_keyword hword', nameEnd_shift]
    rfl
  | none =>
    by_cases hhelper : ∃ f r, Helper.ofName? (c.rest.takeWhile isNamePart) = some f ∧
        (nameEnd c).rest = '(' :: r
    · obtain ⟨f, r, hf, hr⟩ := hhelper
      have hlt := length_next_nameEnd_lt hr
      have hr' : (nameEnd (c.shift p)).rest = '(' :: r := by rw [nameEnd_shift, rest_shift, hr]
      rw [readNamed_helper hword hf hr, readNamed_helper (c := c.shift p) hword hf hr',
        nameEnd_shift, next_shift, ih _ hlt]
      cases readExpr (nameEnd c).next with
      | error fault => rfl
      | ok y =>
        obtain ⟨x, d⟩ := y
        simp only [Reading.shift, shiftOutcome, Prod.map, id, closeParen_shift]
        cases closeParen d with
        | error fault => rfl
        | ok d =>
          simp only [shiftOutcome, offset_shift, Helper.apply_shift]
          cases f.apply (nameEnd c).next.offset x <;> rfl
    · have hno : ∀ f r, Helper.ofName? (c.rest.takeWhile isNamePart) = some f →
          (nameEnd c).rest ≠ '(' :: r := fun f r hf hr => hhelper ⟨f, r, hf, hr⟩
      rw [readNamed_path hword hno, readNamed_path (c := c.shift p) hword (nameEnd_shift c ▸ hno),
        readPath_shift]
      rfl

theorem readExpr_shift (c : Cursor) :
    readExpr (c.shift p) = Reading.shift p (readExpr c) := by
  -- On the length of what is left: the argument of a helper is shorter.
  induction hn : c.rest.length using Nat.strongRecOn generalizing c with
  | ind n ih =>
    have hle := Cursor.length_skipWhile isAsciiBlank c
    have hnamed : readNamed ((c.skipWhile isAsciiBlank).shift p) =
        Reading.shift p (readNamed (c.skipWhile isAsciiBlank)) :=
      readNamed_shift_of fun d hd => ih d.rest.length (by omega) d rfl
    rw [readExpr, readExpr, skipWhile_shift, rest_shift]
    cases (c.skipWhile isAsciiBlank).rest with
    | nil => rfl
    | cons x r =>
      simp only [readString_shift, readNumber_shift, hnamed, offset_shift]
      split
      · rfl
      · split
        · rfl
        · split
          · rfl
          · split <;> rfl

theorem readNamed_shift (c : Cursor) :
    readNamed (c.shift p) = Reading.shift p (readNamed c) :=
  readNamed_shift_of fun d _ => readExpr_shift d

theorem directive_shift (at_ : Nat) (c : Cursor) :
    directive (byteLength p + at_) (c.shift p) = Reading.shift p (directive at_ c) := by
  unfold directive
  simp only [rest_shift, next_shift, readExpr_shift, readNamed_shift]
  split
  · rfl
  · split
    · cases readExpr c.next with
      | error fault => rfl
      | ok y =>
        obtain ⟨x, d⟩ := y
        simp only [Reading.shift, shiftOutcome, Prod.map, id, closeParen_shift]
        cases closeParen d <;> rfl
    · split <;> rfl

/-! ## Attribute values -/

namespace ValueDraft

variable (v : ValueDraft) (c : Cursor)

@[simp] theorem start_shift : start (c.shift p) = (start c).shift p := rfl

@[simp] theorem push_shift (x : Char) : (v.shift p).push (c.shift p) x = (v.push c x).shift p := by
  unfold push shift
  cases v.word <;> rfl

@[simp] theorem close_shift : (v.shift p).close (c.shift p) = (v.close c).shift p := by
  obtain ⟨gap, word, fragments, escapes, faults⟩ := v
  cases word with
  | none => rfl
  | some w => simp [close, shift, Fragment.shift, Placed.shift]

@[simp] theorem express_shift (e : Cursor) (x : Expr) :
    (v.shift p).express (c.shift p) (e.shift p) x = (v.express c e x).shift p := by
  simp only [express, close_shift]
  simp [shift, Fragment.shift]

@[simp] theorem escape_shift : (v.shift p).escape (c.shift p) = (v.escape c).shift p := by
  unfold escape
  rw [push_shift]
  simp [shift]

@[simp] theorem fault_shift (f : Fault) : (v.shift p).fault (f.shift p) = (v.fault f).shift p := by
  simp [fault, shift]

@[simp] theorem isDynamic_shift : (v.shift p).isDynamic = v.isDynamic := by
  unfold isDynamic shift
  rw [List.any_map]
  congr 1
  funext x
  cases x <;> rfl

end ValueDraft

theorem readValue_shift (hp : ∀ x ∈ p.getLast?, x.isAlphanum = false) (quote : Char)
    (v : ValueDraft) (c : Cursor) :
    readValue quote (v.shift p) (c.shift p) =
      Prod.map (ValueDraft.shift p) (Option.map (Cursor.shift p)) (readValue quote v c) := by
  have hword := afterWord_shift hp
  fun_induction readValue quote v c with
  | case1 v c hr => exact readValue_nil quote _ hr
  | case2 v c r hr =>
    rw [readValue_close (c := c.shift p) _ hr]
    simp [Prod.map]
  | case3 v c x r hr _ hq hb ih =>
    rw [readValue_cons (c := c.shift p) _ hr, if_neg hq, if_pos hb]
    simpa using ih
  | case4 v c r hn hr _ hq hb ih =>
    rw [readValue_cons (c := c.shift p) _ hr, if_neg hq, if_neg hb, if_pos rfl, if_pos hn]
    simpa using ih
  | case5 v c r hn ha hr _ hq hb ih =>
    rw [readValue_cons (c := c.shift p) _ hr, if_neg hq, if_neg hb, if_pos rfl, if_neg hn, hword,
      if_pos ha]
    simpa using ih
  | case6 v c r hn ha y s hs hl hr _ hq hb ih =>
    have hs' : directive (c.shift p).offset (c.shift p).next = .ok (y, s.shift p) := by
      rw [offset_shift, next_shift, directive_shift, hs]
      rfl
    rw [readValue_cons (c := c.shift p) _ hr, if_neg hq, if_neg hb, if_pos rfl, if_neg hn, hword,
      if_neg ha, hs']
    simpa using ih
  | case7 v c r hn ha f hf hr _ hq hb ih =>
    have hf' : directive (c.shift p).offset (c.shift p).next = .error (f.shift p) := by
      rw [offset_shift, next_shift, directive_shift, hf]
      rfl
    rw [readValue_cons (c := c.shift p) _ hr, if_neg hq, if_neg hb, if_pos rfl, if_neg hn, hword,
      if_neg ha, hf']
    simpa using ih
  | case8 v c x r hr _ hq hb hx ih =>
    rw [readValue_cons (c := c.shift p) _ hr, if_neg hq, if_neg hb, if_neg hx]
    simpa using ih

/-! ## Drafts -/

variable {src : Source} {before : Draft}

/-- What a step of the scan has read and where it leads, behind a text. -/
abbrev stepBehind (p : List Char) (before : Draft) : Draft × Cursor → Draft × Cursor :=
  Prod.map (Draft.behind p · before) (Cursor.shift p)

namespace Draft

variable (d : Draft) (c : Cursor)

@[simp] theorem flush_behind :
    (d.behind p before).flush (c.shift p) = (d.flush c).behind p before := by
  have hrun : (d.behind p before).pending.placed (c.shift p) = (d.pending.placed c).shift p := rfl
  unfold flush
  rw [hrun]
  by_cases h : (d.pending.placed c).text.isEmpty = true
  · simp [behind, Placed.shift, h]
  · simp [behind, Placed.shift, h, Statement.shift]

@[simp] theorem resume_behind :
    (d.behind p before).resume (c.shift p) = (d.resume c).behind p before := rfl

@[simp] theorem fault_behind (x : Cause) :
    (d.behind p before).fault x (c.shift p) = (d.fault x c).behind p before := by
  simp [fault, behind, Fault.shift]

theorem faults_behind (fs : List Fault) :
    { d.behind p before with
      faults := (d.behind p before).faults ++ fs.map (Fault.shift p) } =
      Draft.behind p { d with faults := d.faults ++ fs } before := by
  simp [behind]

@[simp] theorem emit_behind (x : Statement) :
    (d.behind p before).emit (src.behind p) (c.shift p) (x.shift p) =
      (d.emit src c x).behind p before := by
  simp [emit, behind, Statement.shift, Pragma.shift, Source.behind, lineColumn_append,
    lineColumnBehind]

theorem escapes_behind (es : List Cursor) :
    (es.map (Cursor.shift p)).foldl (fun d e => (d.flush e).resume e.next) (d.behind p before) =
      (es.foldl (fun d e => (d.flush e).resume e.next) d).behind p before := by
  induction es generalizing d with
  | nil => rfl
  | cons e es ih =>
    rw [List.map_cons, List.foldl_cons, List.foldl_cons, flush_behind, next_shift, resume_behind, ih]

@[simp] theorem attribute_behind (start name nameEnd opened quote : Cursor) (v : ValueDraft) :
    (d.behind p before).attribute (src.behind p) (start.shift p) (name.shift p) (nameEnd.shift p)
        (opened.shift p) (quote.shift p) (v.shift p) =
      (d.attribute src start name nameEnd opened quote v).behind p before := by
  cases hv : v.isDynamic with
  | false =>
    rw [Draft.attribute, Draft.attribute]
    simp only [ValueDraft.isDynamic_shift, hv]
    exact escapes_behind d v.escapes
  | true =>
    rw [attribute_dynamic hv, attribute_dynamic (by rw [ValueDraft.isDynamic_shift, hv])]
    rw [flush_behind, next_shift, ← resume_behind, ← emit_behind]
    rfl

end Draft

theorem readImport_behind (d : Draft) (c : Cursor) :
    readImport (d.behind p before) (c.shift p) = stepBehind p before (readImport d c) := by
  unfold readImport
  simp only [rest_shift, advance_shift, Draft.fault_behind]
  split
  · rfl
  · simp [Draft.behind, Draft.resume]

/-! ## Tags -/

section

variable (hp : ∀ x ∈ p.getLast?, x.isAlphanum = false) (d : Draft)

include hp

theorem quotedStep_behind (start name nameEnd value : Cursor) (quote : Char) :
    quotedStep (src.behind p) (d.behind p before) (start.shift p) (name.shift p) (nameEnd.shift p)
        (value.shift p) quote =
      (quotedStep src d start name nameEnd value quote).behind p before := by
  unfold quotedStep
  rw [next_shift, ValueDraft.start_shift, readValue_shift hp]
  cases readValue quote (.start value.next) value.next with
  | mk v close =>
    have hfaults : { d.behind p before with
        faults := (d.behind p before).faults ++ (v.shift p).faults } =
        Draft.behind p { d with faults := d.faults ++ v.faults } before :=
      Draft.faults_behind d v.faults
    cases close with
    | none =>
      simp only [Prod.map, Option.map_none, toEnd_shift]
      exact congrArg (TagStep.leave · _) hfaults
    | some close =>
      simp only [Prod.map, Option.map_some, next_shift]
      exact congrArg (TagStep.stay · _)
        ((congrArg (Draft.attribute · _ _ _ _ _ _ _) hfaults).trans (Draft.attribute_behind ..))

theorem valueStep_behind (start name nameEnd : Cursor) :
    valueStep (src.behind p) (d.behind p before) (start.shift p) (name.shift p)
        (nameEnd.shift p) =
      (valueStep src d start name nameEnd).behind p before := by
  unfold valueStep
  simp only [skipWhile_shift, next_shift, rest_shift, quotedStep_behind hp d]
  split
  · rfl
  · split
    · rfl
    · split <;> rfl

theorem tagStep_behind (c : Cursor) :
    tagStep (src.behind p) (d.behind p before) (c.shift p) =
      (tagStep src d c).behind p before := by
  unfold tagStep
  simp only [skipWhile_shift, next_shift, rest_shift, valueStep_behind hp d]
  split
  · rfl
  · split
    · rfl
    · split
      · rfl
      · split <;> rfl

theorem attributes_behind (c : Cursor) :
    attributes (src.behind p) (d.behind p before) (c.shift p) =
      stepBehind p before (attributes src d c) := by
  fun_induction attributes src d c with
  | case1 d c d' e h =>
    have hstep : tagStep (src.behind p) (d.behind p before) (c.shift p) = _ :=
      tagStep_behind hp d c
    rw [h] at hstep
    exact attributes_leave hstep
  | case2 d c d' e h hlt ih =>
    have hstep : tagStep (src.behind p) (d.behind p before) (c.shift p) = _ :=
      tagStep_behind hp d c
    rw [h] at hstep
    rw [attributes_stay hstep, ih]

/-! ## The scan -/

theorem transition_behind (c : Cursor) :
    transition (src.behind p) (d.behind p before) (c.shift p) =
      stepBehind p before (transition src d c) := by
  unfold transition
  simp only [afterWord_shift hp, next_shift, rest_shift, advance_shift, toEnd_shift, offset_shift,
    Draft.flush_behind, Draft.resume_behind, Draft.fault_behind, readImport_behind, directive_shift]
  split
  · rfl
  · split
    · rfl
    · split <;> rfl
    · rfl
    · split
      · rfl
      · cases directive c.offset c.next with
        | error fault => exact congrArg (·, c.next.shift p) (Draft.faults_behind d [fault])
        | ok y =>
          obtain ⟨x, e⟩ := y
          have hwrite : Statement.write x (byteLength p + c.offset) =
              (Statement.write x c.offset).shift p := rfl
          simp only [Reading.shift, shiftOutcome, Prod.map, id, hwrite, Draft.emit_behind,
            Draft.resume_behind]

theorem step_behind (c : Cursor) :
    step (src.behind p) (d.behind p before) (c.shift p) = stepBehind p before (step src d c) := by
  unfold step
  simp only [rest_shift, transition_behind hp d, tag, next_shift, skipWhile_shift,
    attributes_behind hp d]
  split
  · rfl
  · split <;> rfl
  · rfl

/-- Behind a text that ends with no letter or digit the scan goes on as it goes through the template
alone. -/
theorem scan_behind (c : Cursor) :
    scan (src.behind p) (d.behind p before) (c.shift p) = (scan src d c).behind p before := by
  fun_induction scan src d c with
  | case1 d c h => rw [scan_end (by simpa using h), Draft.flush_behind]
  | case2 d c h hlt ih =>
    rw [scan_step _ _ (by simpa using h), step_behind hp d]
    exact ih

end

/-- If nothing is pending behind the text, the scan of the template starts there anew. -/
theorem scanned_behind {e : Cursor} (hp : ∀ x ∈ p.getLast?, x.isAlphanum = false)
    (h : Visits (src.behind p) before e) (hs : Spans (.start (p ++ src.text)) p e)
    (hpending : before.pending = e) : scanned (src.behind p) = (scanned src).behind p before := by
  have hstart : Spans (.start (p ++ src.text)) p ((start src.text).shift p) :=
    ⟨rfl, Nat.add_comm _ _, by simp [start, shift]⟩
  have hdraft : (Draft.start src.text).behind p before = before := by
    obtain ⟨pending, body, faults, imports⟩ := before
    simp only at hpending
    simp [Draft.behind, Draft.start, hpending, hs.unique hstart]
  calc scanned (src.behind p)
      = scan (src.behind p) before e := scanned_of_visits h
    _ = scan (src.behind p) ((Draft.start src.text).behind p before) ((start src.text).shift p) := by
        rw [hdraft, hs.unique hstart]
    _ = (scanned src).behind p before := scan_behind hp _ _

end

/-! ## What a template says -/

theorem Diagnostic.ofFault_shift (p text : List Char) (f : Fault) :
    ofFault (p ++ text) (f.shift p) = (ofFault text f).shift p := by
  simp [ofFault, Diagnostic.shift, Fault.shift, lineColumn_append]

/-- Behind the text `p`, which writes `lead`, a template says what it says alone: its statements,
its imports, and what is wrong with it. -/
structure ReadsBehind (p : List Char) (lead : List Statement) (src : Source) (names : ClassNames) :
    Prop where
  body : ((src.behind p).parse names).tree.body names.execute =
    lead ++ ((src.parse names).tree.body names.execute).map (Statement.shift p)
  imports : ((src.behind p).parse names).tree.imports = (src.parse names).tree.imports
  diagnostics : ((src.behind p).parse names).diagnostics =
    (src.parse names).diagnostics.map (Diagnostic.shift p)

theorem readsBehind_of_visits {p : List Char} {src : Source} {before : Draft} {e : Cursor}
    (names : ClassNames) (hp : ∀ x ∈ p.getLast?, x.isAlphanum = false)
    (h : Visits (src.behind p) before e) (hs : Spans (.start (p ++ src.text)) p e)
    (hpending : before.pending = e) (hfaults : before.faults = []) (himports : before.imports = []) :
    ReadsBehind p before.body src names := by
  have hscan := scanned_behind hp h hs hpending
  constructor
  · rw [body_parse, body_parse, hscan]
    rfl
  · simp only [Source.parse, hscan, Draft.behind, himports, List.nil_append]
    rfl
  · rw [diagnostics_parse, diagnostics_parse, hscan, List.map_map]
    simp only [Draft.behind, hfaults, List.nil_append, List.map_map]
    exact List.map_congr_left fun f _ => Diagnostic.ofFault_shift p src.text f

end Sigil.Template
