import Sigil.Proofs.Bytewise.AttributeValue

/-!
# Templates by byte offsets

The reader of templates with byte offsets in place of cursors: it takes bytes from the template,
cuts slices, counts braces down and goes round in loops, and each of these stops it if it goes wrong.
No template stops it, and it gives what `Source.parse` gives (`translate_eq_parse`).
-/

namespace Sigil.Template.Bytewise

open Text Cursor

structure State where
  /-- Where the literal run starts that is not written yet. -/
  pending : Nat
  body : List Statement
  diagnostics : List Diagnostic
  imports : List String

namespace State

def start : State := ⟨0, [], [], []⟩

/-- The literal run written up to an offset. -/
def flush (t : State) (src : Source) (i : Nat) : Run State := do
  if t.pending < i then
    let run ← slice src.text t.pending i
    return { t with pending := i, body := t.body ++ [.literal (String.ofList run) t.pending] }
  else return { t with pending := i }

/-- A new literal run started at an offset. -/
def resume (t : State) (i : Nat) : State := { t with pending := i }

def fault (t : State) (src : Source) (f : Fault) : State :=
  { t with diagnostics := t.diagnostics ++ [.ofFault src.text f] }

/-- An import that stands at an offset, unless it has no name. -/
def addImport (t : State) (src : Source) (name : List Char) (i : Nat) : State :=
  if name.isEmpty then t.fault src ⟨.emptyExpression, i⟩
  else { t with imports := t.imports ++ [String.ofList name] }

def emit (t : State) (src : Source) (i : Nat) (x : Statement) : State :=
  { t with
    body := t.body ++ [.pragma (.line (lineColumn src.text i).1 src.file), x, .pragma .hidden] }

end State

/-! ## Transitions -/

/-- One round over the bytes of a code block, `depth` of whose braces are open. -/
def balancedTurn (s : List Char) : Nat × Nat → Run (Turn (Nat × Nat) Nat) :=
  fun (depth, i) => do
    if size s ≤ i then return .done (size s)
    else if sees s (· == '{') i then return .again (depth + 1, i + 1)
    else if sees s (· == '}') i then
      let depth ← less depth
      if depth = 0 then return .done (i + 1) else return .again (depth, i + 1)
    else return .again (depth, i + 1)

/-- The offset behind the brace that closes the one that is here, or the end. -/
def balanced (s : List Char) (i : Nat) : Run Nat := loop (balancedTurn s) (rounds s) (0, i)

/-- The offset of the first line feed from an offset on, where `rest` is left, or the end. -/
def lineEnd (s rest : List Char) (i : Nat) : Nat :=
  if '\n' ∈ rest then i + byteLength (rest.takeWhile (· ≠ '\n')) else size s

/-- The offset behind the line feed at an offset, or the end. -/
def behindLine (s : List Char) (i : Nat) : Nat := if i < size s then i + 1 else i

/-- Goes on behind the import whose name starts here. -/
def readImport (src : Source) (t : State) (i : Nat) : Run (State × Nat) := do
  let rest ← slice src.text i (size src.text)
  let line ← slice src.text i (lineEnd src.text rest i)
  let e := behindLine src.text (lineEnd src.text rest i)
  return ((t.addImport src (importName line) i).resume e, e)

/-- Goes on behind the comment whose `@` is here. -/
def comment (src : Source) (t : State) (i : Nat) : Run (State × Nat) := do
  let t ← t.flush src i
  match cut? commentEnd (← slice src.text (i + 2) (size src.text)) with
  | some (inner, _) =>
    let e := i + 2 + byteLength inner + 2
    return (t.resume e, e)
  | none =>
    return ((t.fault src ⟨.unterminatedComment, i⟩).resume (size src.text), size src.text)

/-- Goes on behind the import or the directive whose `@` is here. -/
def command (src : Source) (t : State) (i : Nat) : Run (State × Nat) := do
  if startsWith (← slice src.text (i + 1) (size src.text)) importWord then
    readImport src (← t.flush src i) (i + 1 + byteLength importWord)
  else
    match ← directive src.text (i + 1) with
    | .ok (x, e) => return (((← t.flush src i).emit src i (.write x i)).resume e, e)
    | .error f => return (t.fault src f, i + 1)

def transition (src : Source) (t : State) (i : Nat) : Run (State × Nat) := do
  if ← afterWord src.text i then return (t, i + 1)
  else if sees src.text (· == '@') (i + 1) then
    return ((← t.flush src i).resume (i + 1), i + 2)
  else if sees src.text (· == '*') (i + 1) then comment src t i
  else if sees src.text (· == '{') (i + 1) then
    let t ← t.flush src i
    let e ← balanced src.text (i + 1)
    return ((t.fault src ⟨.codeBlockUnsupported, i⟩).resume e, e)
  else command src t i

/-! ## Tags -/

/-- An attribute value that has been read, written if it holds an expression; otherwise the second
half of each `@@` is left out. -/
def writeValue (src : Source) (t : State) (before name nameEnd quote close : Nat) (v : Value) :
    Run State := do
  if v.dynamic then
    let t ← t.flush src before
    let name' ← slice src.text name nameEnd
    let opening ← slice src.text before (quote + 1)
    let closing ← slice src.text v.gap (close + 1)
    let w : AttributeWrite :=
      { name := String.ofList name'
        opening := ⟨String.ofList opening, before⟩
        closing := ⟨String.ofList closing, v.gap⟩
        fragments := v.fragments }
    return (t.emit src name (.attribute w)).resume (close + 1)
  else v.escapes.foldlM (fun t e => do return (← t.flush src e).resume (e + 1)) t

/-- Past an attribute value whose opening quote is at `quote`. -/
def quotedTurn (src : Source) (t : State) (before name nameEnd quote : Nat) (q : Char) :
    Run (Turn (State × Nat) (State × Nat)) := do
  let (v, close) ← value src.text q (quote + 1)
  let t := v.faults.foldl (State.fault · src) t
  match close with
  | none => return .done (t, size src.text)
  | some close =>
    return .again (← writeValue src t before name nameEnd quote close v, close + 1)

/-- Past the value that may follow an attribute's name. -/
def nameTurn (src : Source) (t : State) (before name nameEnd : Nat) :
    Run (Turn (State × Nat) (State × Nat)) := do
  let equals ← skip src.text isAsciiBlank nameEnd
  if sees src.text (· == '=') equals then
    let quote ← skip src.text isAsciiBlank (equals + 1)
    if sees src.text (· == '"') quote then quotedTurn src t before name nameEnd quote '"'
    else if sees src.text (· == '\'') quote then quotedTurn src t before name nameEnd quote '\''
    else return .again (t, quote)
  else return .again (t, nameEnd)

/-- One round through a tag: past an attribute or a character that belongs to none, or out of the
tag. -/
def tagTurn (src : Source) : State × Nat → Run (Turn (State × Nat) (State × Nat)) :=
  fun (t, before) => do
    let i ← skip src.text isAsciiBlank before
    if size src.text ≤ i then return .done (t, i)
    else if sees src.text (· == '>') i then return .done (t, i + 1)
    else if sees src.text (fun x => x == '@' || x == '<') i then return .done (t, i)
    else if sees src.text (fun x => x == '/' || x == '"' || x == '\'' || x == '=') i then
      return .again (t, i + 1)
    else nameTurn src t before i (← skip src.text (!endsAttributeName ·) i)

/-- Goes through the start tag whose `<` is here. -/
def tag (src : Source) (t : State) (i : Nat) : Run (State × Nat) := do
  let i ← skip src.text isTagNamePart (i + 1)
  loop (tagTurn src) (rounds src.text) (t, i)

/-! ## Templates -/

/-- One round through a template: over a byte, a transition or a tag. -/
def scanTurn (src : Source) : State × Nat → Run (Turn (State × Nat) State) :=
  fun (t, i) => do
    if i < size src.text then
      let b ← index src.text i
      if b = '@' then return .again (← transition src t i)
      else if b = '<' && sees src.text Char.isAlpha (i + 1) then return .again (← tag src t i)
      else return .again (t, i + 1)
    else return .done (← t.flush src (size src.text))

def translate (src : Source) (names : ClassNames) : Run Parsed := do
  let t ← loop (scanTurn src) (rounds src.text) (.start, 0)
  let tree := names.tree t.body
  return { tree := { tree with imports := tree.imports.insertAll t.imports }
           diagnostics := t.diagnostics }

/-! ## Places in the template -/

/-- What has been read of a template, with an offset in place of a cursor. -/
def ofDraft (src : Source) (d : Draft) : State :=
  ⟨d.pending.offset, d.body, d.faults.map (.ofFault src.text), d.imports⟩

/-- What has been read of a template and the place behind it, with offsets in place of cursors. -/
def ofPlace (src : Source) (x : Draft × Cursor) : State × Nat := (ofDraft src x.1, x.2.offset)

section

variable {src : Source} {d : Draft} {c e : Cursor} {p m t r : List Char} {x : Char}

theorem at_of_located (h : Located src d c p m) : At src.text c := ⟨_, h.spans⟩

theorem flush_ofDraft (h : Located src d c p m) :
    (ofDraft src d).flush src c.offset = .ok (ofDraft src (d.flush c)) := by
  have hpending : (ofDraft src d).pending = d.pending.offset := rfl
  have hend := h.run.offset
  rw [State.flush, hpending]
  rcases Draft.body_flush h.run with ⟨rfl, hb⟩ | ⟨hm, hb⟩
  · rw [byteLength_nil] at hend
    rw [if_neg (by omega)]
    unfold ofDraft
    rw [hb]
    rfl
  · have := byteLength_pos hm
    rw [if_pos (by omega), slice_spans ⟨_, h.before⟩ h.run, ok_bind]
    unfold ofDraft
    rw [hb]
    rfl

theorem fault_ofDraft (d : Draft) (f : Fault) :
    (ofDraft src d).fault src f = ofDraft src { d with faults := d.faults ++ [f] } := by
  simp [ofDraft, State.fault]

theorem emit_ofDraft (d : Draft) (c : Cursor) (y : Statement) :
    (ofDraft src d).emit src c.offset y = ofDraft src (d.emit src c y) := rfl

/-! ## Code blocks and imports -/

/-- What a round over a code block does at a byte of the character at a place. -/
theorem balancedTurn_cons {s : List Char} (h : At s c) (hr : c.rest = x :: r) {k : Nat}
    (hk : k < x.utf8Size) (depth : Nat) :
    balancedTurn s (depth, c.offset + k) =
      if x = '{' then .ok (.again (depth + 1, c.offset + k + 1))
      else if x = '}' then do
        let depth ← less depth
        if depth = 0 then return .done (c.offset + k + 1)
        else return .again (depth, c.offset + k + 1)
      else .ok (.again (depth, c.offset + k + 1)) := by
  have hsize := h.not_size_le hr hk
  have hopens := sees_at_add (ascii_eq (a := '{') (by decide)).uniform h hr hk
  have hcloses := sees_at_add (ascii_eq (a := '}') (by decide)).uniform h hr hk
  simp only [balancedTurn, if_neg hsize, hopens, hcloses, beq_iff_eq, pure_eq_ok]

/-- The braces of a block are counted down as often as they are counted up: behind the first one the
count is not zero. -/
theorem balanced_at {s : List Char} (h : At s c) (hr : c.rest = '{' :: r) :
    balanced s c.offset = .ok (c.advance (balancedLength 0 c.rest)).offset := by
  refine loop_eq_ok
    (fun b : Nat × Cursor => At s b.2 ∧ ((∃ r, b.2.rest = '{' :: r) ∨ 0 < b.1))
    (fun b => byteLength b.2.rest) (fun b => (b.1, b.2.offset))
    (fun b => (b.2.advance (balancedLength b.1 b.2.rest)).offset) ?_ (0, c) ⟨h, .inl ⟨r, hr⟩⟩
    h.lt_rounds
  rintro ⟨depth, c⟩ ⟨h, hopen⟩
  simp only at h hopen ⊢
  cases hr : c.rest with
  | nil =>
    left
    have hend := h.size_eq
    rw [hr, byteLength_nil] at hend
    rw [balancedTurn, if_pos (h.size_le_iff.2 hr), balancedLength, advance_zero, hend]
    rfl
  | cons x r =>
    have hrest : c.next.rest = r := (Spans.next hr).behind hr
    have hleft : byteLength c.next.rest + 1 ≤ byteLength (x :: r) :=
      hr ▸ left_of_spans (.next hr) (by simp)
    have hturn := balancedTurn_cons h hr (Char.utf8Size_pos x) depth
    rw [Nat.add_zero] at hturn
    simp only [balancedLength]
    by_cases hup : x = '{'
    · refine .inr ⟨(depth + 1, c.next), 1, Nat.one_pos, hleft, ⟨h.next hr, .inr (Nat.succ_pos _)⟩,
        ?_, passes_one ?_⟩
      · rw [if_pos hup, hrest, next_advance]
      · rw [hturn, if_pos hup, offset_next hr (hup ▸ by decide)]
    have hdepth : 0 < depth := by
      refine hopen.resolve_left ?_
      rintro ⟨r', hr'⟩
      rw [hr] at hr'
      exact hup (List.cons.inj hr').1
    rw [if_neg hup] at hturn ⊢
    by_cases hdown : x = '}'
    · have hless : less depth = .ok (depth - 1) := if_neg (by omega)
      rw [if_pos hdown, hless, ok_bind, ← offset_next hr (hdown ▸ by decide)] at hturn
      rw [if_pos hdown]
      by_cases hlast : depth ≤ 1
      · left
        rw [hturn, if_pos (by omega), if_pos hlast]
        rfl
      · refine .inr ⟨(depth - 1, c.next), 1, Nat.one_pos, hleft, ⟨h.next hr, .inr (by omega)⟩,
          ?_, passes_one ?_⟩
        · rw [if_neg hlast, hrest, next_advance]
        · rw [hturn, if_neg (by omega)]
          rfl
    · refine .inr ⟨(depth, c.next), x.utf8Size, Char.utf8Size_pos x, ?_, ⟨h.next hr, .inr hdepth⟩,
        ?_, passes_next (fun i => (depth, i)) hr fun k hk => ?_⟩
      · rw [hrest, byteLength_cons, Nat.add_comm]
      · rw [if_neg hdown, hrest, next_advance]
      · rw [balancedTurn_cons h hr hk, if_neg hup, if_neg hdown]

/-- A line ends at the end of the text or at a line feed. -/
theorem restOfLine_cases (c : Cursor) :
    ∃ mid, Spans c (restOfLine c.rest).1 mid ∧
      (mid.rest = [] ∧ '\n' ∉ c.rest ∧ c.advance (restOfLine c.rest).2 = mid ∨
        ∃ r, mid.rest = '\n' :: r ∧ '\n' ∈ c.rest ∧
          c.advance (restOfLine c.rest).2 = mid.next) := by
  have hline := Spans.skipWhile (fun x => decide (x ≠ '\n')) c
  have hno : '\n' ∉ c.rest.takeWhile (fun x => decide (x ≠ '\n')) := fun hmem => by
    simpa using List.all_eq_true.1 List.all_takeWhile _ hmem
  refine ⟨_, hline, ?_⟩
  have hrest := hline.rest
  have hlength := congrArg List.length hrest
  cases hr : (c.skipWhile fun x => decide (x ≠ '\n')).rest with
  | nil =>
    rw [hr, List.append_nil] at hrest hlength
    refine .inl ⟨rfl, fun hmem => hno (hrest ▸ hmem), ?_⟩
    have hcount : (restOfLine c.rest).2 = (c.rest.takeWhile fun x => decide (x ≠ '\n')).length := by
      rw [restOfLine, hlength]
      exact Nat.min_eq_right (Nat.le_succ _)
    rw [hcount]
    rfl
  | cons y r =>
    have hy : y = '\n' := by
      have := List.head?_dropWhile_not (fun x => decide (x ≠ '\n')) c.rest
      rw [← rest_skipWhile, hr] at this
      simpa using this
    rw [hr, hy] at hrest hlength
    refine .inr ⟨r, by rw [hy], by rw [hrest]; simp, ?_⟩
    have hcount : (restOfLine c.rest).2 =
        (c.rest.takeWhile fun x => decide (x ≠ '\n')).length + 1 := by
      rw [restOfLine, hlength, List.length_append, List.length_cons]
      exact Nat.min_eq_left (by omega)
    rw [hcount, next, skipWhile, advance_advance]

theorem readImport_at (h : At src.text c) (d : Draft) :
    readImport src (ofDraft src d) c.offset = .ok (ofPlace src (Template.readImport d c)) := by
  obtain ⟨mid, hline, hcases⟩ := restOfLine_cases c
  have hmid := h.spans hline
  have hend : lineEnd src.text c.rest c.offset = mid.offset := by
    rcases hcases with ⟨hr, hno, -⟩ | ⟨r, -, hmem, -⟩
    · rw [lineEnd, if_neg hno, hmid.size_eq, hr]
      rfl
    · rw [lineEnd, if_pos hmem, hline.offset]
      rfl
  have hbehind : behindLine src.text mid.offset = (c.advance (restOfLine c.rest).2).offset := by
    rcases hcases with ⟨hr, -, hadvance⟩ | ⟨r, hr, -, hadvance⟩
    · rw [behindLine, if_neg (Nat.not_lt.2 (hmid.size_le_iff.2 hr)), hadvance]
    · rw [behindLine, if_pos (hmid.lt_size hr), hadvance, offset_next hr (by decide)]
  rw [readImport, slice_toEnd h, ok_bind, hend, slice_spans h hline, ok_bind, hbehind]
  unfold State.addImport Template.readImport
  simp only
  split
  · rw [fault_ofDraft]
    rfl
  · rfl

/-! ## Transitions -/

theorem transition_comment (hword : ¬ c.afterWord = true) (hr : c.next.rest = '*' :: r) :
    Template.transition src d c =
      match endOf? commentEnd (c.advance 2).rest with
      | some n =>
        ((d.flush c).resume ((c.advance 2).advance n), (c.advance 2).advance n)
      | none => (((d.flush c).fault .unterminatedComment c).resume c.toEnd, c.toEnd) := by
  rw [Template.transition, if_neg hword, hr]
  rfl

theorem transition_command (hword : ¬ c.afterWord = true)
    (hother : ∀ y r', c.next.rest = y :: r' → y ≠ '@' ∧ y ≠ '*' ∧ y ≠ '{') :
    Template.transition src d c =
      if startsWith c.next.rest importWord then
        Template.readImport (d.flush c) (c.next.advance importWord.length)
      else
        match Template.directive c.offset c.next with
        | .ok (x, e) => (((d.flush c).emit src c (.write x c.offset)).resume e, e)
        | .error f => ({ d with faults := d.faults ++ [f] }, c.next) := by
  rw [Template.transition, if_neg hword]
  split
  · exact absurd rfl (hother _ _ ‹_›).1
  · exact absurd rfl (hother _ _ ‹_›).2.1
  · exact absurd rfl (hother _ _ ‹_›).2.2
  · rfl

theorem comment_at (h : Located src d c p m) (hr : c.rest = '@' :: '*' :: r)
    (hword : ¬ c.afterWord = true) :
    comment src (ofDraft src d) c.offset = .ok (ofPlace src (Template.transition src d c)) := by
  have hc := at_of_located h
  have hnext : c.next.rest = '*' :: r := (Spans.next hr).behind hr
  have hopening : Spans c ['@', '*'] (c.advance 2) := Spans.advance_length hr
  have htwo : c.offset + 2 = (c.advance 2).offset := hopening.offset.symm
  rw [transition_comment hword hnext, comment, flush_ofDraft h, ok_bind, htwo,
    slice_toEnd (hc.spans hopening), ok_bind, endOf?]
  cases hcut : cut? commentEnd (c.advance 2).rest with
  | none =>
    simp only [Option.map_none]
    rw [← hc.toEnd_offset, fault_ofDraft]
    rfl
  | some y =>
    obtain ⟨a, b⟩ := y
    have hsplit : (c.advance 2).rest = (a ++ commentEnd) ++ b := eq_of_cut? hcut
    have hend : (c.advance 2).offset + byteLength a + 2 =
        ((c.advance 2).advance (a.length + commentEnd.length)).offset := by
      rw [← List.length_append, (Spans.advance_length hsplit).offset, byteLength_append,
        Nat.add_assoc]
      rfl
    simp only [Option.map_some]
    rw [hend]
    rfl

theorem command_at (h : Located src d c p m) (hr : c.rest = '@' :: r)
    (hword : ¬ c.afterWord = true)
    (hother : ∀ y r', c.next.rest = y :: r' → y ≠ '@' ∧ y ≠ '*' ∧ y ≠ '{') :
    command src (ofDraft src d) c.offset = .ok (ofPlace src (Template.transition src d c)) := by
  have hc := at_of_located h
  have hnext := hc.next hr
  have hone : c.next.offset = c.offset + 1 := offset_next hr (by decide)
  have hflush := flush_ofDraft h
  rw [transition_command hword hother, command, ← hone, slice_toEnd hnext, ok_bind]
  split
  · rename_i hstarts
    obtain ⟨t, ht⟩ := Option.isSome_iff_exists.1 hstarts
    have hspans := Spans.advance_length (after?_eq_some_iff.1 ht)
    rw [hflush, ok_bind, ← hspans.offset, readImport_at (hnext.spans hspans)]
  · rw [hone, directive_at hc hr, ok_bind]
    cases Template.directive c.offset c.next with
    | error f =>
      simp only [offsets, Except.map]
      rw [fault_ofDraft, ← hone]
      rfl
    | ok y =>
      obtain ⟨y, e⟩ := y
      simp only [offsets, Except.map]
      rw [hflush, ok_bind, emit_ofDraft]
      rfl

theorem transition_at (h : Located src d c p m) (hr : c.rest = '@' :: r) :
    transition src (ofDraft src d) c.offset =
      .ok (ofPlace src (Template.transition src d c)) := by
  have hc := at_of_located h
  have hnext := hc.next hr
  have hrest : c.next.rest = r := (Spans.next hr).behind hr
  have hone : c.next.offset = c.offset + 1 := offset_next hr (by decide)
  have hsees (a : Char) (ha : a.toNat < 128) :
      sees src.text (· == a) (c.offset + 1) = true ↔ ∃ r', c.next.rest = a :: r' := by
    rw [← hone, sees_eq_iff ha hnext]
  rw [transition, afterWord_at hc, ok_bind]
  by_cases hword : c.afterWord = true
  · rw [if_pos hword, Template.transition, if_pos hword, ← hone]
    rfl
  rw [if_neg hword]
  by_cases hat : ∃ r', c.next.rest = '@' :: r'
  · rw [if_pos ((hsees '@' (by decide)).2 hat), flush_ofDraft h, ok_bind]
    obtain ⟨r', hat⟩ := hat
    have hboth : c.rest = ['@', '@'] ++ r' := by rw [hr, ← hrest, hat]; rfl
    have htwo : (c.advance 2).offset = c.offset + 2 := (Spans.advance_length hboth).offset
    rw [Template.transition, if_neg hword, hat, ← hone, ← htwo]
    rfl
  rw [if_neg fun hs => hat ((hsees '@' (by decide)).1 hs)]
  by_cases hstar : ∃ r', c.next.rest = '*' :: r'
  · rw [if_pos ((hsees '*' (by decide)).2 hstar)]
    obtain ⟨r', hstar⟩ := hstar
    exact comment_at h (by rw [hr, ← hrest, hstar]) hword
  rw [if_neg fun hs => hstar ((hsees '*' (by decide)).1 hs)]
  by_cases hblock : ∃ r', c.next.rest = '{' :: r'
  · rw [if_pos ((hsees '{' (by decide)).2 hblock), flush_ofDraft h, ok_bind]
    obtain ⟨r', hblock⟩ := hblock
    rw [Template.transition, if_neg hword, ← hone, balanced_at hnext hblock, ok_bind,
      fault_ofDraft, hblock]
    rfl
  rw [if_neg fun hs => hblock ((hsees '{' (by decide)).1 hs)]
  refine command_at h hr hword fun y r' hy => ⟨?_, ?_, ?_⟩
  all_goals rintro rfl
  · exact hat ⟨r', hy⟩
  · exact hstar ⟨r', hy⟩
  · exact hblock ⟨r', hy⟩

/-! ## Tags -/

theorem ascii_isTagNamePart : Ascii isTagNamePart :=
  (ascii_isAlphanum.or (ascii_eq (by decide))).or (ascii_eq (by decide))

theorem ascii_endsAttributeName : Ascii endsAttributeName := by
  intro x hx
  simp only [endsAttributeName, Bool.or_eq_true, beq_iff_eq, or_assoc] at hx
  rcases hx with hx | rfl | rfl | rfl | rfl | rfl | rfl | rfl
  · exact ascii_isAsciiBlank x hx
  all_goals decide

/-- At each escape the run is written and a new one starts behind its first half. -/
theorem foldlM_escapes {es : List Cursor} (hd : At src.text d.pending)
    (hes : Escapes d.pending es c) :
    (es.map Cursor.offset).foldlM (fun t e => do return (← t.flush src e).resume (e + 1))
      (ofDraft src d) =
      .ok (ofDraft src (es.foldl (fun d e => (d.flush e).resume e.next) d)) := by
  induction es generalizing d with
  | nil => rfl
  | cons e es ih =>
    obtain ⟨⟨t, ht⟩, ⟨r, hr⟩, hrest⟩ := hes
    obtain ⟨u, hu⟩ := hd
    have hlocated : Located src d e u t := ⟨hu, ht⟩
    rw [List.map_cons, List.foldlM_cons, flush_ofDraft hlocated, ok_bind, List.foldl_cons,
      ← offset_next hr (by decide)]
    exact ih (d := (d.flush e).resume e.next) ((at_of_located hlocated).next hr) hrest

theorem foldl_fault (fs : List Fault) :
    fs.foldl (State.fault · src) (ofDraft src d) =
      ofDraft src { d with faults := d.faults ++ fs } := by
  induction fs generalizing d with
  | nil => simp
  | cons f fs ih =>
    rw [List.foldl_cons, fault_ofDraft, ih]
    simp

theorem writeValue_at {before name nameEnd value close : Cursor} {quote : Char} {v : ValueDraft}
    (h : Located src d before p m) (ha : AttributeHead before name nameEnd value quote)
    (hv : readValue quote (.start value.next) value.next = (v, some close)) :
    writeValue src (ofDraft src d) before.offset name.offset nameEnd.offset value.offset
        close.offset (ofValue v) =
      .ok (ofDraft src (d.attribute src before name nameEnd value.next close v)) := by
  have hbefore := at_of_located h
  obtain ⟨⟨t₁, ht₁, -⟩, t₂, ht₂, -⟩ := ha.clear
  obtain ⟨t₃, ht₃, -⟩ := ha.clear_next
  obtain ⟨-, -, t₄, -, -, ht₄, hclose⟩ := ha.spans_closed hv
  have hvalue := hbefore.spans ht₃
  have hreads := (Reads.start hvalue).readValue ha.quote_eq hv
  obtain ⟨r, hr⟩ := ha.rest_value
  have hquote : quote.toNat < 128 := by rcases ha.quote_eq with rfl | rfl <;> decide
  have hopened : value.offset + 1 = value.next.offset := (offset_next hr hquote).symm
  have hclosed : close.offset + 1 = close.next.offset := (offset_next hclose.rest hquote).symm
  have hflag : (ofValue v).dynamic = v.isDynamic := rfl
  have hgap : (ofValue v).gap = v.gap.offset := rfl
  rw [writeValue, hflag, hgap]
  by_cases hdynamic : v.isDynamic = true
  · rw [if_pos hdynamic, flush_ofDraft h, ok_bind, slice_spans (hbefore.spans ht₁) ht₂, ok_bind,
      hopened, slice_spans hbefore ht₃, ok_bind, hclosed,
      slice_spans hreads.gap (ht₄.trans hclose), ok_bind, Draft.attribute_dynamic hdynamic,
      ht₂.between, ht₃.placed, (ht₄.trans hclose).placed]
    rfl
  · have hescapes : Escapes d.pending v.escapes close :=
      hreads.escapes.behind (h.run.trans ht₃)
    rw [if_neg hdynamic, Draft.attribute, if_neg hdynamic]
    exact foldlM_escapes ⟨_, h.before⟩ hescapes

def ofTagStep (src : Source) : TagStep → Turn (State × Nat) (State × Nat)
  | .leave d c => .done (ofPlace src (d, c))
  | .stay d c => .again (ofPlace src (d, c))

theorem quotedTurn_at {before name nameEnd value : Cursor} {quote : Char}
    (h : Located src d before p m) (ha : AttributeHead before name nameEnd value quote) :
    quotedTurn src (ofDraft src d) before.offset name.offset nameEnd.offset value.offset quote =
      .ok (ofTagStep src (quotedStep src d before name nameEnd value quote)) := by
  have hbefore := at_of_located h
  obtain ⟨t, ht, -⟩ := ha.clear_next
  obtain ⟨r, hr⟩ := ha.rest_value
  have hquote : quote.toNat < 128 := by rcases ha.quote_eq with rfl | rfl <;> decide
  rw [quotedTurn, ← offset_next hr hquote, value_at ha.quote_eq (hbefore.spans ht), ok_bind]
  cases hv : readValue quote (.start value.next) value.next with
  | mk v close =>
    have hfaults : (ofValue v).faults.foldl (State.fault · src) (ofDraft src d) =
        ofDraft src { d with faults := d.faults ++ v.faults } := foldl_fault v.faults
    simp only [ofResult]
    rw [hfaults]
    cases close with
    | none =>
      rw [quotedStep_open hv, ofTagStep, ofPlace, hbefore.toEnd_offset]
      rfl
    | some close =>
      have hlocated : Located src { d with faults := d.faults ++ v.faults } before p m :=
        ⟨h.before, h.run⟩
      obtain ⟨-, -, -, -, -, -, hclose⟩ := ha.spans_closed hv
      rw [quotedStep_closed hv, ofTagStep, ofPlace, offset_next hclose.rest hquote]
      simp only [Option.map_some]
      rw [writeValue_at hlocated ha hv]
      rfl

theorem nameTurn_at {name nameEnd : Cursor} (h : Located src d c p m)
    (ha : AttributeName c name nameEnd) :
    nameTurn src (ofDraft src d) c.offset name.offset nameEnd.offset =
      .ok (ofTagStep src (valueStep src d c name nameEnd)) := by
  have hc := at_of_located h
  obtain ⟨⟨t₁, ht₁, -⟩, t₂, ht₂, -⟩ := ha.clear
  have hend := (hc.spans ht₁).spans ht₂
  have hequals := hend.skipWhile isAsciiBlank
  rw [nameTurn, skip_at ascii_isAsciiBlank.uniform hend, ok_bind, valueStep]
  by_cases heq : ∃ r, (nameEnd.skipWhile isAsciiBlank).rest = '=' :: r
  · obtain ⟨r, hr⟩ := heq
    have hvalue := (hequals.next hr).skipWhile isAsciiBlank
    have hhead : (nameEnd.skipWhile isAsciiBlank).rest.head? = some '=' := by rw [hr]; rfl
    rw [if_pos ((sees_eq_iff (by decide) hequals).2 ⟨r, hr⟩), ← offset_next hr (by decide),
      skip_at ascii_isAsciiBlank.uniform (hequals.next hr), ok_bind]
    simp only [hhead, ne_eq, not_true, if_false]
    cases hv : ((nameEnd.skipWhile isAsciiBlank).next.skipWhile isAsciiBlank).rest with
    | nil =>
      rw [sees_nil hvalue hv, sees_nil hvalue hv]
      rfl
    | cons y u =>
      have hhead' {q : Char} (hy : y = q) (hq : q = '"' ∨ q = '\'') :
          AttributeHead c name nameEnd _ q := ⟨ha, hhead, rfl, by rw [hv, hy]; rfl, hq⟩
      rw [sees_cons (ascii_eq (by decide)).uniform hvalue hv,
        sees_cons (ascii_eq (by decide)).uniform hvalue hv]
      simp only [beq_iff_eq]
      by_cases hdouble : y = '"'
      · rw [if_pos hdouble, if_neg (by simp [hdouble]), hdouble]
        exact quotedTurn_at h (hhead' hdouble (.inl rfl))
      · rw [if_neg hdouble]
        by_cases hsingle : y = '\''
        · rw [if_pos hsingle, if_neg (by simp [hsingle]), hsingle]
          exact quotedTurn_at h (hhead' hsingle (.inr rfl))
        · rw [if_neg hsingle, if_pos ⟨hdouble, hsingle⟩]
          rfl
  · have hhead : (nameEnd.skipWhile isAsciiBlank).rest.head? ≠ some '=' :=
      fun hhead => heq (List.head?_eq_some_iff.1 hhead)
    rw [if_neg fun hs => heq ((sees_eq_iff (by decide) hequals).1 hs)]
    simp only [if_pos hhead]
    rfl

theorem tagTurn_at (h : Located src d c p m) :
    tagTurn src (ofPlace src (d, c)) = .ok (ofTagStep src (tagStep src d c)) := by
  have hc := at_of_located h
  have hname := hc.skipWhile isAsciiBlank
  have hblank : skip src.text isAsciiBlank c.offset =
    .ok (c.skipWhile isAsciiBlank).offset := skip_at ascii_isAsciiBlank.uniform hc
  simp only [tagTurn, ofPlace]
  rw [hblank, ok_bind]
  unfold tagStep
  simp only
  cases hr : (c.skipWhile isAsciiBlank).rest with
  | nil =>
    rw [if_pos (hname.size_le_iff.2 hr)]
    rfl
  | cons x r =>
    have hx : isAsciiBlank x = false := by
      have := List.head?_dropWhile_not isAsciiBlank c.rest
      rw [← rest_skipWhile, hr] at this
      simpa using this
    rw [if_neg (Nat.not_le.2 (hname.lt_size hr)), sees_cons (ascii_eq (by decide)).uniform hname hr,
      sees_cons ((ascii_eq (by decide)).or (ascii_eq (by decide))).uniform hname hr,
      sees_cons ((((ascii_eq (by decide)).or (ascii_eq (by decide))).or (ascii_eq (by decide))).or
        (ascii_eq (by decide))).uniform hname hr]
    simp only [Bool.or_eq_true, beq_iff_eq, or_assoc]
    by_cases hclose : x = '>'
    · rw [if_pos hclose, if_pos hclose, ← offset_next hr (hclose ▸ by decide)]
      rfl
    rw [if_neg hclose, if_neg hclose]
    by_cases hout : x = '@' ∨ x = '<'
    · rw [if_pos hout, if_pos hout]
      rfl
    rw [if_neg hout, if_neg hout]
    by_cases hmark : x = '/' ∨ x = '"' ∨ x = '\'' ∨ x = '='
    · have hascii : x.toNat < 128 := by rcases hmark with rfl | rfl | rfl | rfl <;> decide
      rw [if_pos hmark, if_pos hmark, ← offset_next hr hascii]
      rfl
    rw [if_neg hmark, if_neg hmark]
    simp only [not_or] at hout hmark
    have hinner : (!endsAttributeName x) = true := by
      simp [endsAttributeName, hx, hclose, hout, hmark]
    rw [skip_at ascii_endsAttributeName.uniform.not hname, ok_bind, ← skipWhile_cons hr hinner]
    exact nameTurn_at h ⟨rfl, ⟨x, r, hr, hclose, hout.1, hout.2, hmark⟩, rfl⟩

/-- A place with fewer characters behind it has fewer bytes behind it. -/
theorem left_of_length {s : List Char} (h : At s c) (k : At s e)
    (hlt : e.rest.length < c.rest.length) : byteLength e.rest + 1 ≤ byteLength c.rest := by
  obtain ⟨u, hu, -⟩ := h.text_eq
  obtain ⟨v, hv, -⟩ := k.text_eq
  have hc : c.rest <:+ s := ⟨u, hu.symm⟩
  have he : e.rest <:+ s := ⟨v, hv.symm⟩
  obtain ⟨w, hw⟩ := List.suffix_of_suffix_length_le he hc (Nat.le_of_lt hlt)
  have hne : w ≠ [] := by
    rintro rfl
    rw [← hw] at hlt
    exact Nat.lt_irrefl _ hlt
  have := byteLength_pos hne
  rw [← hw, byteLength_append]
  omega

theorem located_of_visitsTag (h : VisitsTag src d c) : ∃ p m, Located src d c p m :=
  located_of_moves (moves_to_visitTag h)

theorem attributes_at (h : VisitsTag src d c) :
    loop (tagTurn src) (rounds src.text) (ofPlace src (d, c)) =
      .ok (ofPlace src (attributes src d c)) := by
  obtain ⟨p, m, hlocated⟩ := located_of_visitsTag h
  refine loop_eq_ok (fun b : Draft × Cursor => VisitsTag src b.1 b.2)
    (fun b => byteLength b.2.rest) (ofPlace src) (fun b => ofPlace src (attributes src b.1 b.2))
    ?_ (d, c) h (at_of_located hlocated).lt_rounds
  rintro ⟨d, c⟩ h
  obtain ⟨p, m, hlocated⟩ := located_of_visitsTag h
  have hturn := tagTurn_at hlocated
  cases hstep : tagStep src d c with
  | leave d' e =>
    left
    rw [hturn, hstep]
    simp only
    rw [attributes_leave hstep]
    rfl
  | stay d' e =>
    have hvisit := h.stay hstep
    obtain ⟨p', m', hlocated'⟩ := located_of_visitsTag hvisit
    have hlt := (left_tagStep src d c).2 hstep
    refine .inr ⟨(d', e), 1, Nat.one_pos,
      left_of_length (at_of_located hlocated) (at_of_located hlocated') hlt, hvisit, ?_,
      passes_one ?_⟩
    · rw [attributes_stay hstep]
    · rw [hturn, hstep]
      rfl

theorem tag_at (h : Visits src d c) (hr : c.rest = '<' :: x :: r) (hx : x.isAlpha = true) :
    tag src (ofDraft src d) c.offset = .ok (ofPlace src (Template.tag src d c)) := by
  obtain ⟨p, m, hlocated⟩ := located_of_moves (moves_to_visit h)
  have hnext := (at_of_located hlocated).next hr
  rw [tag, ← offset_next hr (by decide), skip_at ascii_isTagNamePart.uniform hnext, ok_bind]
  exact attributes_at (.enter h hr hx)

/-! ## The scan -/

/-- A round at an `@` or a `<` leads to the next place that the scan comes to. -/
theorem scanTurn_mark (h : Visits src d c) (hr : c.rest = x :: r) (hx : x = '@' ∨ x = '<') :
    scanTurn src (ofPlace src (d, c)) = .ok (.again (ofPlace src (step src d c))) := by
  obtain ⟨p, m, hlocated⟩ := located_of_moves (moves_to_visit h)
  have hc := at_of_located hlocated
  obtain ⟨b, hb, hbyte⟩ := index_at hc hr (Char.utf8Size_pos x)
  change scanTurn src (ofDraft src d, c.offset) = _
  rw [scanTurn, if_pos (hc.lt_size hr), ← Nat.add_zero c.offset, hb, ok_bind, Nat.add_zero]
  rcases hx with rfl | rfl
  · rw [if_pos ((hbyte '@' (by decide)).2 rfl), transition_at hlocated hr, step_at src d hr]
    rfl
  · rw [(hbyte '<' (by decide)).2 rfl, if_neg (by decide),
      sees_succ ascii_isAlpha.uniform hc hr (by decide)]
    by_cases hname : r.head?.any Char.isAlpha = true
    · cases r with
      | nil => cases hname
      | cons y u =>
        rw [if_pos (by rw [hname]; rfl), tag_at h hr hname, step_tag src d hr hname]
        rfl
    · have hplain : ∀ y ∈ r.head?, y.isAlpha = false := by
        cases r with
        | nil => nofun
        | cons y u => simpa using hname
      rw [if_neg (by simp [hname]), step_other src d hr (by decide) fun _ => hplain, ofPlace,
        offset_next hr (by decide)]
      rfl

/-- The rounds over the bytes of another character lead behind it. -/
theorem passes_other (h : At src.text c) (hr : c.rest = x :: r) (hat : x ≠ '@') (hopen : x ≠ '<')
    (d : Draft) :
    Passes (scanTurn src) x.utf8Size (ofPlace src (d, c)) (ofPlace src (d, c.next)) := by
  refine passes_next (fun i => (ofDraft src d, i)) hr fun k hk => ?_
  obtain ⟨b, hb, hbyte⟩ := index_at h hr hk
  have hbat : ¬ b = '@' := fun hb => hat ((hbyte '@' (by decide)).1 hb)
  have hbopen : ¬ b = '<' := fun hb => hopen ((hbyte '<' (by decide)).1 hb)
  rw [scanTurn, if_pos (Nat.lt_of_not_le (h.not_size_le hr hk)), hb, ok_bind, if_neg hbat,
    if_neg (by simp [hbopen])]
  rfl

/-- The rounds over a character lead to the next place that the scan comes to. -/
theorem passes_step (h : Visits src d c) (hr : c.rest = x :: r) :
    ∃ n, 0 < n ∧ byteLength (step src d c).2.rest + n ≤ byteLength c.rest ∧
      Passes (scanTurn src) n (ofPlace src (d, c)) (ofPlace src (step src d c)) := by
  obtain ⟨p, m, hlocated⟩ := located_of_moves (moves_to_visit h)
  have hc := at_of_located hlocated
  by_cases hmark : x = '@' ∨ x = '<'
  · have hne : c.rest ≠ [] := hr ▸ List.cons_ne_nil x r
    obtain ⟨p', m', hlocated'⟩ := located_of_moves (moves_to_visit (h.step hne))
    exact ⟨1, Nat.one_pos, left_of_length hc (at_of_located hlocated') (length_step hne),
      passes_one (scanTurn_mark h hr hmark)⟩
  · rw [not_or] at hmark
    have hrest : c.next.rest = r := (Spans.next hr).behind hr
    rw [step_other src d hr hmark.1 fun hx => absurd hx hmark.2]
    refine ⟨x.utf8Size, Char.utf8Size_pos x, ?_, passes_other hc hr hmark.1 hmark.2 d⟩
    rw [hr, hrest, byteLength_cons, Nat.add_comm]

/-- No template stops the reader by byte offsets, and it gives what `Source.parse` gives. -/
theorem translate_eq_parse (src : Source) (names : ClassNames) :
    translate src names = .ok (src.parse names) := by
  have hscan : loop (scanTurn src) (rounds src.text)
      (ofPlace src (.start src.text, .start src.text)) = .ok (ofDraft src (scanned src)) := by
    refine loop_eq_ok (fun b : Draft × Cursor => Visits src b.1 b.2) (fun b => byteLength b.2.rest)
      (ofPlace src) (fun b => ofDraft src (scan src b.1 b.2)) ?_ (.start src.text, .start src.text)
      .start (at_start src.text).lt_rounds
    rintro ⟨d, c⟩ h
    obtain ⟨p, m, hlocated⟩ := located_of_moves (moves_to_visit h)
    cases hr : c.rest with
    | nil =>
      left
      have hend : c.offset = size src.text := by
        rw [(at_of_located hlocated).size_eq, hr]
        rfl
      change scanTurn src (ofDraft src d, c.offset) = _
      rw [scanTurn, if_neg (by omega), ← hend, flush_ofDraft hlocated, scan_end hr]
      rfl
    | cons x r =>
      obtain ⟨n, hn, hleft, hpass⟩ := passes_step h hr
      have hne : c.rest ≠ [] := hr ▸ List.cons_ne_nil x r
      exact .inr ⟨step src d c, n, hn, hr ▸ hleft, h.step hne, by rw [← scan_step src d hne], hpass⟩
  have hstart : ((State.start, 0) : State × Nat) =
      ofPlace src (.start src.text, .start src.text) := rfl
  rw [translate, hstart, hscan, ok_bind]
  rfl

end

end Sigil.Template.Bytewise
