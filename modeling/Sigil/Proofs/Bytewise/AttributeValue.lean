import Sigil.Proofs.Bytewise.Directive
import Sigil.Proofs.Template.Draft

/-!
# Attribute values by byte offsets

The reader of quoted values with byte offsets in place of cursors. From the offset of a place on it
is never stopped, and gives the offsets of what `readValue` gives (`value_at`).
-/

namespace Sigil.Template.Bytewise

open Text Cursor

/-- What has been read of a value. -/
structure Value where
  /-- Where the blanks before the next fragment start. -/
  gap : Nat
  /-- The word that is being read: its offset and its characters so far. -/
  word : Option (Nat × List Char)
  fragments : List Fragment
  /-- The offsets of `@@`. -/
  escapes : List Nat
  /-- Whether an expression has been read. -/
  dynamic : Bool
  faults : List Fault

namespace Value

def start (i : Nat) : Value := ⟨i, none, [], [], false, []⟩

/-- A character appended to the word, which starts here if there is none. -/
def push (v : Value) (i : Nat) (x : Char) : Value :=
  match v.word with
  | some (w, cs) => { v with word := some (w, cs ++ [x]) }
  | none => { v with word := some (i, [x]) }

/-- The word, if there is one, made a fragment that ends here. -/
def close (s : List Char) (v : Value) (i : Nat) : Run Value :=
  match v.word with
  | some (w, cs) => do
    let lead ← slice s v.gap w
    return { v with
      gap := i
      word := none
      fragments := v.fragments ++ [.literal ⟨String.ofList lead, v.gap⟩ ⟨String.ofList cs, w⟩] }
  | none => return v

def express (s : List Char) (v : Value) (i e : Nat) (x : Expr) : Run Value := do
  let v ← v.close s i
  let lead ← slice s v.gap i
  return { v with
    gap := e
    fragments := v.fragments ++ [.dynamic ⟨String.ofList lead, v.gap⟩ x i]
    dynamic := true }

def escape (v : Value) (i : Nat) : Value := { v.push i '@' with escapes := v.escapes ++ [i] }

def fault (v : Value) (f : Fault) : Value := { v with faults := v.faults ++ [f] }

end Value

/-- One round through a value: past a character, an escape or a directive, or out of the value at
its closing quote or at the end of the text. -/
def valueTurn (s : List Char) (quote : Char) :
    Value × Nat → Run (Turn (Value × Nat) (Value × Option Nat)) :=
  fun (v, i) => do
    if size s ≤ i then return .done (v, none)
    else if sees s (· == quote) i then return .done (← v.close s i, some i)
    else if sees s isAsciiBlank i then return .again (← v.close s i, i + 1)
    else if sees s (· == '@') i then
      if sees s (· == '@') (i + 1) then return .again (v.escape i, i + 2)
      else if ← afterWord s i then return .again (v.push i '@', i + 1)
      else
        match ← directive s (i + 1) with
        | .ok (x, e) => return .again (← v.express s i e x, e)
        | .error f => return .again ((v.fault f).push i '@', i + 1)
    else
      match ← slice s i (size s) with
      | [] => return .done (v, none)
      | x :: _ => return .again (v.push i x, i + x.utf8Size)

/-- Reads the value that starts at an offset up to its closing quote: what was read, and the offset
of the quote if there is one. -/
def value (s : List Char) (quote : Char) (i : Nat) : Run (Value × Option Nat) :=
  loop (valueTurn s quote) (rounds s) (.start i, i)

/-! ## Values that are being read -/

/-- What has been read of a value, with offsets in place of cursors. -/
def ofValue (v : ValueDraft) : Value :=
  ⟨v.gap.offset, v.word.map fun (w, cs) => (w.offset, cs), v.fragments, v.escapes.map Cursor.offset,
    v.isDynamic, v.faults⟩

/-- The escapes between two places, in the order in which they stand there. -/
def Escapes : Cursor → List Cursor → Cursor → Prop
  | a, [], c => ∃ t, Spans a t c
  | a, e :: es, c => (∃ t, Spans a t e) ∧ (∃ r, e.rest = '@' :: r) ∧ Escapes e.next es c

theorem Escapes.spans {a c e : Cursor} {es : List Cursor} (h : Escapes a es c) {t : List Char}
    (ht : Spans c t e) : Escapes a es e := by
  induction es generalizing a with
  | nil => exact h.elim fun _ hu => ⟨_, hu.trans ht⟩
  | cons b es ih => exact ⟨h.1, h.2.1, ih h.2.2⟩

theorem Escapes.snoc {a c : Cursor} {es : List Cursor} (h : Escapes a es c) {r : List Char}
    (hr : c.rest = '@' :: r) : Escapes a (es ++ [c]) c.next := by
  induction es generalizing a with
  | nil => exact ⟨h, ⟨r, hr⟩, [], .refl _⟩
  | cons b es ih => exact ⟨h.1, h.2.1, ih h.2.2⟩

theorem Escapes.behind {a b c : Cursor} {es : List Cursor} (h : Escapes b es c) {t : List Char}
    (ht : Spans a t b) : Escapes a es c := by
  cases es with
  | nil => exact h.elim fun _ hu => ⟨_, ht.trans hu⟩
  | cons e es => exact ⟨h.1.elim fun _ hu => ⟨_, ht.trans hu⟩, h.2⟩

/-- A value that starts at `from_` has been read up to `c`. -/
structure Reads (s : List Char) (from_ : Cursor) (v : ValueDraft) (c : Cursor) : Prop where
  at_ : At s c
  gap : At s v.gap
  word : ∀ w cs, v.word = some (w, cs) → (∃ t, Spans v.gap t w) ∧ ∃ t, Spans w t c
  blank : v.word = none → ∃ t, Spans v.gap t c
  escapes : Escapes from_ v.escapes c

section

variable {s : List Char} {from_ c e : Cursor} {v : ValueDraft} {x : Char} {r t : List Char}

theorem Reads.start (h : At s c) : Reads s c (.start c) c :=
  ⟨h, h, nofun, fun _ => ⟨[], .refl c⟩, [], .refl c⟩

theorem Reads.spans (h : Reads s from_ v c) (ht : Spans c t e) : Reads s from_ v e where
  at_ := h.at_.spans ht
  gap := h.gap
  word w cs hw := ⟨(h.word w cs hw).1, (h.word w cs hw).2.elim fun _ hu => ⟨_, hu.trans ht⟩⟩
  blank hw := (h.blank hw).elim fun _ hu => ⟨_, hu.trans ht⟩
  escapes := h.escapes.spans ht

theorem Reads.close (h : Reads s from_ v c) : Reads s from_ (v.close c) c := by
  unfold ValueDraft.close
  split
  · exact ⟨h.at_, h.at_, nofun, fun _ => ⟨[], .refl c⟩, h.escapes⟩
  · exact h

theorem Reads.push (h : Reads s from_ v c) (x : Char) : Reads s from_ (v.push c x) c := by
  unfold ValueDraft.push
  split
  · rename_i w cs hw
    refine ⟨h.at_, h.gap, fun w' cs' hw' => ?_, nofun, h.escapes⟩
    cases hw'
    exact h.word w cs hw
  · rename_i hw
    refine ⟨h.at_, h.gap, fun w' cs' hw' => ?_, nofun, h.escapes⟩
    cases hw'
    exact ⟨h.blank hw, [], .refl c⟩

theorem Reads.escape (h : Reads s from_ v c) (hr : c.rest = '@' :: r) :
    Reads s from_ (v.escape c) c.next := by
  have hpush := (h.push '@').spans (.next hr)
  refine ⟨hpush.at_, hpush.gap, hpush.word, hpush.blank, ?_⟩
  exact h.escapes.snoc hr

theorem Reads.fault (h : Reads s from_ v c) (f : Fault) : Reads s from_ (v.fault f) c :=
  ⟨h.at_, h.gap, h.word, h.blank, h.escapes⟩

theorem word_close (v : ValueDraft) (c : Cursor) : (v.close c).word = none := by
  unfold ValueDraft.close
  split
  · rfl
  · assumption

theorem Reads.express (h : Reads s from_ v c) (ht : Spans c t e) (y : Expr) :
    Reads s from_ (v.express c e y) e := by
  have hword : (v.express c e y).word = none := word_close v c
  have hend := h.at_.spans ht
  refine ⟨hend, hend, fun w cs hw => ?_, fun _ => ⟨[], .refl e⟩, h.close.escapes.spans ht⟩
  rw [hword] at hw
  cases hw

theorem push_ofValue (v : ValueDraft) (c : Cursor) (x : Char) :
    (ofValue v).push c.offset x = ofValue (v.push c x) := by
  have hfragments := ValueDraft.isDynamic_push v c x
  unfold ofValue
  rw [hfragments]
  unfold Value.push ValueDraft.push
  cases v.word <;> rfl

theorem escape_ofValue (v : ValueDraft) (c : Cursor) :
    (ofValue v).escape c.offset = ofValue (v.escape c) := by
  rw [Value.escape, push_ofValue]
  simp only [ofValue, ValueDraft.escape, ValueDraft.escapes_push, List.map_append]
  rfl

theorem close_ofValue (h : Reads s from_ v c) :
    (ofValue v).close s c.offset = .ok (ofValue (v.close c)) := by
  have hdynamic := ValueDraft.isDynamic_close v c
  cases hw : v.word with
  | none =>
    have hv : v.close c = v := by
      unfold ValueDraft.close
      rw [hw]
    have hnone : (ofValue v).word = none := by
      rw [ofValue, hw]
      rfl
    rw [Value.close, hnone, hv]
    rfl
  | some p =>
    obtain ⟨w, cs⟩ := p
    obtain ⟨⟨t, ht⟩, -⟩ := h.word w cs hw
    have hslice : slice s v.gap.offset w.offset = .ok t := slice_spans h.gap ht
    obtain ⟨gap, word, fragments, escapes, faults⟩ := v
    cases hw
    simp only [ofValue, Value.close, Option.map_some] at hdynamic ⊢
    rw [hdynamic, hslice, ok_bind]
    simp only [ValueDraft.close, ht.placed]
    rfl

theorem express_ofValue (h : Reads s from_ v c) (e : Cursor) (y : Expr) :
    (ofValue v).express s c.offset e.offset y = .ok (ofValue (v.express c e y)) := by
  have hclose := h.close
  obtain ⟨t, ht⟩ := hclose.blank (word_close v c)
  rw [Value.express, close_ofValue h, ok_bind]
  show (slice s (v.close c).gap.offset c.offset >>= _) = _
  rw [slice_spans hclose.gap ht, ok_bind]
  have hdynamic := ValueDraft.isDynamic_express v c e y
  unfold ofValue
  rw [hdynamic]
  simp only [ValueDraft.express, ht.placed]
  rfl

/-! ## Rounds -/

theorem readValue_word {quote : Char} (v : ValueDraft) (hc : c.rest = '@' :: r) (hq : quote ≠ '@')
    (hn : r.head? ≠ some '@') (ha : c.afterWord = true) :
    readValue quote v c = readValue quote (v.push c '@') c.next := by
  rw [readValue_sign v hc hq hn, if_pos ha]

/-- A round through a value leads to where the reader goes on. -/
def Leads (s : List Char) (quote : Char) (from_ : Cursor) (v : ValueDraft) (c : Cursor) : Prop :=
  ∃ w e t, readValue quote v c = readValue quote w e ∧ Reads s from_ w e ∧ t ≠ [] ∧ Spans c t e ∧
    valueTurn s quote (ofValue v, c.offset) = .ok (.again (ofValue w, e.offset))

theorem valueTurn_cons {quote : Char} (hq : quote.toNat < 128) (h : At s c) (hr : c.rest = x :: r)
    (v : Value) :
    valueTurn s quote (v, c.offset) =
      if x = quote then do return .done (← v.close s c.offset, some c.offset)
      else if isAsciiBlank x = true then do
        return .again (← v.close s c.offset, c.offset + 1)
      else if x = '@' then
        if sees s (· == '@') (c.offset + 1) then .ok (.again (v.escape c.offset, c.offset + 2))
        else if c.afterWord = true then .ok (.again (v.push c.offset '@', c.offset + 1))
        else do
          match ← directive s (c.offset + 1) with
          | .ok (y, e) => return .again (← v.express s c.offset e y, e)
          | .error f => return .again ((v.fault f).push c.offset '@', c.offset + 1)
      else .ok (.again (v.push c.offset x, c.offset + x.utf8Size)) := by
  have hsize : ¬ size s ≤ c.offset := Nat.not_le.2 (h.lt_size hr)
  rw [valueTurn, if_neg hsize, sees_cons (ascii_eq hq).uniform h hr,
    sees_cons ascii_isAsciiBlank.uniform h hr,
    sees_cons (ascii_eq (a := '@') (by decide)).uniform h hr, afterWord_at h, slice_toEnd h, hr]
  simp only [beq_iff_eq, ok_bind, pure_eq_ok]

theorem leads_of_sign {quote : Char} (hq : quote.toNat < 128) (hne : quote ≠ '@')
    (h : Reads s from_ v c) (hr : c.rest = '@' :: r) : Leads s quote from_ v c := by
  have hnext := Spans.next hr
  have hone : c.offset + 1 = c.next.offset := (offset_next hr (by decide)).symm
  have hturn := valueTurn_cons hq h.at_ hr (ofValue v)
  rw [if_neg hne.symm, if_neg (by decide), if_pos rfl,
    sees_succ (ascii_eq (by decide)).uniform h.at_ hr (by decide), directive_at h.at_ hr,
    hone] at hturn
  by_cases htwo : ∃ r', r = '@' :: r'
  · obtain ⟨r', rfl⟩ := htwo
    have hboth : Spans c ['@', '@'] (c.advance 2) := Spans.advance_length hr
    have hsecond : c.next.rest = '@' :: r' := hnext.behind hr
    have hreads : Reads s from_ (v.escape c) (c.advance 2) := by
      rw [← next_next]
      exact (h.escape hr).spans (.next hsecond)
    refine ⟨_, _, _, readValue_escape v hr hne, hreads, List.cons_ne_nil _ _, hboth, ?_⟩
    rw [hturn, if_pos (by simp), escape_ofValue, hboth.offset]
    rfl
  have hn : r.head? ≠ some '@' := fun hn => htwo (List.head?_eq_some_iff.1 hn)
  have hsees : ¬ r.head?.any (· == '@') = true := by
    cases hy : r.head? with
    | none => simp
    | some y => simpa [hy] using hn
  rw [if_neg hsees] at hturn
  by_cases hword : c.afterWord = true
  · refine ⟨_, _, _, readValue_word v hr hne hn hword, (h.push '@').spans hnext,
      List.cons_ne_nil _ _, hnext, ?_⟩
    rw [hturn, if_pos hword, push_ofValue]
  have hplain : c.afterWord = false := Bool.eq_false_iff.2 hword
  rw [if_neg hword, ok_bind] at hturn
  cases hx : Template.directive c.offset c.next with
  | ok y =>
    obtain ⟨y, e⟩ := y
    obtain ⟨z, u, hu, -⟩ := yields_of_directive hx
    have hall := hnext.trans hu
    refine ⟨_, _, _, readValue_directive v hr hne hn hplain hx, h.express hall y,
      List.cons_ne_nil _ _, hall, ?_⟩
    rw [hturn, hx]
    simp only [offsets, Except.map]
    rw [express_ofValue h]
    rfl
  | error f =>
    refine ⟨_, _, _, readValue_fault v hr hne hn hplain hx, ((h.fault f).push '@').spans hnext,
      List.cons_ne_nil _ _, hnext, ?_⟩
    rw [hturn, hx, ← push_ofValue]
    rfl

/-- At a character that is neither the quote nor an `@` a round leads on. -/
theorem leads_of_other {quote : Char} (hq : quote.toNat < 128) (h : Reads s from_ v c)
    (hr : c.rest = x :: r) (hquote : x ≠ quote) (hat : x ≠ '@') : Leads s quote from_ v c := by
  have hnext := Spans.next hr
  have hturn := valueTurn_cons hq h.at_ hr (ofValue v)
  have hother := readValue_other v hr hquote hat
  rw [if_neg hquote] at hturn
  by_cases hblank : isAsciiBlank x = true
  · rw [if_pos hblank] at hother hturn
    refine ⟨_, _, _, hother, h.close.spans hnext, List.cons_ne_nil x [], hnext, ?_⟩
    rw [hturn, close_ofValue h, offset_next hr (ascii_isAsciiBlank x hblank)]
    rfl
  · rw [if_neg hblank] at hother hturn
    refine ⟨_, _, _, hother, (h.push x).spans hnext, List.cons_ne_nil x [], hnext, ?_⟩
    rw [hturn, if_neg hat, push_ofValue, hnext.offset]
    rfl

/-- A round is the last one, or it leads to where the reader goes on. -/
theorem valueTurn_at {quote : Char} (hq : quote = '"' ∨ quote = '\'') (h : Reads s from_ v c) :
    (∃ w t, readValue quote v c = (w, t) ∧ (∀ e, t = some e → Reads s from_ w e) ∧
      valueTurn s quote (ofValue v, c.offset) = .ok (.done (ofValue w, t.map Cursor.offset))) ∨
    Leads s quote from_ v c := by
  have hne : quote ≠ '@' := by rcases hq with rfl | rfl <;> decide
  have hascii : quote.toNat < 128 := by rcases hq with rfl | rfl <;> decide
  cases hr : c.rest with
  | nil =>
    refine .inl ⟨v, none, readValue_nil quote v hr, by simp, ?_⟩
    rw [valueTurn, if_pos (h.at_.size_le_iff.2 hr)]
    rfl
  | cons x r =>
    by_cases hquote : x = quote
    · left
      subst hquote
      refine ⟨v.close c, some c, readValue_close v hr, ?_, ?_⟩
      · rintro e he
        cases he
        exact h.close
      · rw [valueTurn_cons hascii h.at_ hr, if_pos rfl, close_ofValue h]
        rfl
    · right
      by_cases hat : x = '@'
      · exact leads_of_sign hascii hne h (hat ▸ hr)
      · exact leads_of_other hascii h hr hquote hat

/-- What `readValue` gives, with offsets in place of cursors. -/
def ofResult (x : ValueDraft × Option Cursor) : Value × Option Nat :=
  (ofValue x.1, x.2.map Cursor.offset)

/-- From the offset of a place on, a value is read without a stop as `readValue` reads it. -/
theorem value_at {quote : Char} (hq : quote = '"' ∨ quote = '\'') (h : At s c) :
    value s quote c.offset = .ok (ofResult (readValue quote (.start c) c)) := by
  refine loop_eq_ok (fun b : ValueDraft × Cursor => Reads s c b.1 b.2)
    (fun b => byteLength b.2.rest) (fun b => (ofValue b.1, b.2.offset))
    (fun b => ofResult (readValue quote b.1 b.2)) ?_ (.start c, c) (Reads.start h) h.lt_rounds
  rintro ⟨v, d⟩ hv
  rcases valueTurn_at hq hv with ⟨w, t, hw, -, hturn⟩ | ⟨w, e, t, hw, he, ht, hspans, hturn⟩
  · left
    rw [hturn, hw]
    rfl
  · refine .inr ⟨(w, e), 1, Nat.one_pos, left_of_spans hspans ht, he, ?_, passes_one hturn⟩
    rw [hw]

theorem Reads.readValue {quote : Char} (hq : quote = '"' ∨ quote = '\'') {w : ValueDraft}
    (h : Reads s from_ v c) (hw : readValue quote v c = (w, some e)) : Reads s from_ w e := by
  obtain ⟨n, hn⟩ : ∃ n, byteLength c.rest = n := ⟨_, rfl⟩
  induction n using Nat.strongRecOn generalizing v c with
  | ind n ih =>
    rcases valueTurn_at hq h with ⟨w', t, hw', hreads, -⟩ | ⟨w', e', t, hw', he, ht, hspans, -⟩
    · rw [hw] at hw'
      cases hw'
      exact hreads e rfl
    · have hleft := left_of_spans hspans ht
      exact ih _ (by omega) he (hw'.symm.trans hw) rfl

end

end Sigil.Template.Bytewise
