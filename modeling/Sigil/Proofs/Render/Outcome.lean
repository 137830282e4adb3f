import Sigil.Render.Call

/-!
# Outcomes of calls

A call that has a meaning comes down to texts, and a rendering settles one after the other
(`perform_eq`). They depend on what the template renders with and not on what has been written
before; an attribute has one for each of its segments (`writeAttribute_eq`). So a run writes what
its calls write alone, up to the first that fails (`finish_run_eq_alone`). An encoder that panics is
the one way to fail half way through the texts of a call.
-/

namespace Sigil.Render

/-! ## Results of steps that may fail -/

section

variable {α β ε : Type}

theorem eq_ok_of_bind {x : Except ε α} {f : α → Except ε β} {b : β} (h : x >>= f = .ok b) :
    ∃ a, x = .ok a ∧ f a = .ok b := by
  cases x with
  | error e => cases h
  | ok a => exact ⟨a, rfl, h⟩

theorem eq_ok_of_map {x : Except ε α} {f : α → β} {b : β} (h : x.map f = .ok b) :
    ∃ a, x = .ok a ∧ f a = b := by
  cases x with
  | error e => cases h
  | ok a => exact ⟨a, rfl, Except.ok.inj h⟩

theorem mem_of_mapM {f : α → Except ε β} {xs : List α} {ys : List β} (h : xs.mapM f = .ok ys) :
    ∀ y ∈ ys, ∃ x ∈ xs, f x = .ok y := by
  induction xs generalizing ys with
  | nil =>
    rw [List.mapM_nil] at h
    cases h
    exact nofun
  | cons x xs ih =>
    rw [List.mapM_cons] at h
    obtain ⟨y, hx, h⟩ := eq_ok_of_bind h
    obtain ⟨zs, hxs, h⟩ := eq_ok_of_bind h
    cases h
    rw [List.forall_mem_cons]
    refine ⟨⟨x, List.mem_cons_self, hx⟩, fun z hz => ?_⟩
    obtain ⟨w, hw, hz⟩ := ih hxs z hz
    exact ⟨w, List.mem_cons_of_mem x hw, hz⟩

end

/-! ## Encoders and values -/

/-- An encoder that keeps its contract: it encodes every text. -/
def Encoder.Total (enc : Encoder) : Prop := ∀ t, ∃ w, enc.encode t = .ok w

/-- The errors that come of an encoder: its panics. -/
def Encoder.Raises (enc : Encoder) (e : RenderError) : Prop :=
  ∃ t m, enc.encode t = .error m ∧ e = .panicked m

theorem Encoder.Total.not_raises {enc : Encoder} (h : enc.Total) (e : RenderError) :
    ¬ enc.Raises e := by
  rintro ⟨t, m, ht, -⟩
  obtain ⟨w, hw⟩ := h t
  rw [ht] at hw
  cases hw

theorem Encoder.html_total : Encoder.html.Total := fun _ => ⟨_, rfl⟩

/-- The text of a value before encoding; null has the empty one. -/
def Value.display (v : Value) : String := v.display?.getD ""

/-- The text of a value as it is written, unless the encoder panics; null has the empty one. -/
def Value.written (enc : Encoder) (v : Value) : Except RenderError String :=
  ((v.encode? enc).getD (.ok "")).mapError .panicked

theorem Value.raises_of_written {enc : Encoder} {v : Value} {e : RenderError}
    (h : v.written enc = .error e) : enc.Raises e := by
  unfold written encode? at h
  cases v with
  | encoded w => cases h
  | json j =>
    cases hd : (Value.json j).display? with
    | none =>
      rw [hd] at h
      cases h
    | some d =>
      rw [hd] at h
      cases hm : enc.encode d with
      | ok w =>
        simp only [Option.map_some, hm] at h
        cases h
      | error m =>
        simp only [Option.map_some, hm] at h
        cases h
        exact ⟨d, m, hm, rfl⟩

/-- Whether an attribute shows a value: null and false are left out. -/
def Value.isShown (v : Value) : Bool := !v.isNull && v.bool? != some false

theorem isSome_shown? (name : String) (v : Value) :
    (Rendering.shown? name v).isSome = v.isShown := by
  unfold Rendering.shown? Value.isShown
  cases v.isNull with
  | true => rfl
  | false =>
    match v.bool? with
    | none => rfl
    | some true => rfl
    | some false => rfl

/-! ## Segments of an attribute -/

/-- What a piece of the attribute `name` shows. -/
def Piece.body (enc : Encoder) (name : String) (p : Piece) : Except RenderError String :=
  match Rendering.shown? name p.value with
  | none => .ok ""
  | some v => if p.literal then .ok v.display else v.written enc

/-- A part of what an attribute writes. -/
inductive Segment where
  | opening
  | closing
  /-- The blanks in front of a piece. -/
  | lead (p : Piece)
  /-- What a piece shows. -/
  | body (p : Piece)

namespace Segment

def text (enc : Encoder) (name opening closing : String) : Segment → Except RenderError String
  | .opening => .ok opening
  | .closing => .ok closing
  | .lead p => .ok p.lead
  | .body p => p.body enc name

/-- Pieces that are shown: the first takes the place behind the opening, unless one was shown before,
and every other comes behind its own blanks. -/
def front : (shown : Bool) → List Piece → List Segment
  | _, [] => []
  | shown, p :: ps => (if shown then .lead p else .opening) :: .body p :: front true ps

/-- The segments of an attribute: without pieces its opening and its closing, and none if it has
pieces but shows none. -/
def all (ps : List Piece) : List Segment :=
  if ps.isEmpty then [.opening, .closing]
  else
    match ps.filter (·.value.isShown) with
    | [] => []
    | p :: k => front false (p :: k) ++ [.closing]

def texts (enc : Encoder) (name opening closing : String) (gs : List Segment) :
    List (Except RenderError String) :=
  gs.map (text enc name opening closing)

/-- Only an encoder keeps a segment from having a text. -/
theorem raises_of_mem_texts {enc : Encoder} {name opening closing : String} {gs : List Segment}
    {e : RenderError} (h : .error e ∈ texts enc name opening closing gs) : enc.Raises e := by
  obtain ⟨g, -, hg⟩ := List.mem_map.1 h
  cases g with
  | body p =>
    rw [text, Piece.body] at hg
    split at hg
    · cases hg
    · split at hg
      · cases hg
      · exact Value.raises_of_written hg
  | _ => cases hg

end Segment

/-! ## Writing -/

/-- Outcomes one after the other: all their texts, or the first error. -/
def joined (os : List (Except RenderError String)) : Except RenderError String :=
  (os.mapM id).map String.join

theorem joined_cons_ok (t : String) (os : List (Except RenderError String)) :
    joined (.ok t :: os) = (joined os).map (t ++ ·) := by
  rw [joined, joined, List.mapM_cons]
  cases os.mapM id with
  | error e => rfl
  | ok ts => exact congrArg Except.ok (String.join_cons ..)

theorem joined_cons_error (e : RenderError) (os : List (Except RenderError String)) :
    joined (.error e :: os) = .error e := by
  rw [joined, List.mapM_cons]
  rfl

theorem joined_singleton (o : Except RenderError String) : joined [o] = o := by
  cases o with
  | error e => exact joined_cons_error e []
  | ok t => exact (joined_cons_ok t []).trans (congrArg Except.ok String.append_empty)

/-- Outcomes that have a text together have one each. -/
theorem eq_map_of_joined {os : List (Except RenderError String)} {t : String}
    (h : joined os = .ok t) : ∃ ts : List String, os = ts.map .ok ∧ t = String.join ts := by
  induction os generalizing t with
  | nil =>
    cases h
    exact ⟨[], rfl, rfl⟩
  | cons o os ih =>
    cases o with
    | error e =>
      rw [joined_cons_error] at h
      cases h
    | ok u =>
      rw [joined_cons_ok] at h
      obtain ⟨v, hv, rfl⟩ := eq_ok_of_map h
      obtain ⟨ts, rfl, rfl⟩ := ih hv
      exact ⟨u :: ts, rfl, (String.join_cons ..).symm⟩

theorem mem_of_joined_eq_error {os : List (Except RenderError String)} {e : RenderError}
    (h : joined os = .error e) : .error e ∈ os := by
  induction os with
  | nil => cases h
  | cons o os ih =>
    cases o with
    | error f =>
      rw [joined_cons_error] at h
      cases h
      exact List.mem_cons_self
    | ok t =>
      rw [joined_cons_ok] at h
      cases ho : joined os with
      | error f =>
        rw [ho] at h ih
        exact List.mem_cons_of_mem _ (ih h)
      | ok u =>
        rw [ho] at h
        cases h

namespace Rendering

theorem literal_empty (r : Rendering) : r.literal "" = r := by
  unfold literal
  split
  · rfl
  · rw [String.append_empty]

theorem literal_literal (r : Rendering) (a b : String) :
    (r.literal a).literal b = r.literal (a ++ b) := by
  cases h : r.error with
  | some e => simp only [literal, h]
  | none => simp only [literal, h, String.append_assoc]

/-- What a rendering makes of an outcome: its text is appended, or its error recorded. -/
def settle (r : Rendering) : Except RenderError String → Rendering
  | .ok t => r.literal t
  | .error e => r.fail e

def settleAll (r : Rendering) (os : List (Except RenderError String)) : Rendering :=
  os.foldl settle r

@[simp] theorem settleAll_cons (r : Rendering) (o : Except RenderError String)
    (os : List (Except RenderError String)) :
    r.settleAll (o :: os) = (r.settle o).settleAll os := rfl

@[simp] theorem settleAll_append (r : Rendering) (os qs : List (Except RenderError String)) :
    r.settleAll (os ++ qs) = (r.settleAll os).settleAll qs := List.foldl_append

theorem settle_of_hasFailed {r : Rendering} (h : r.hasFailed = true)
    (o : Except RenderError String) : r.settle o = r := by
  cases o with
  | ok t => exact literal_of_hasFailed h t
  | error e => exact fail_of_hasFailed h e

theorem settleAll_of_hasFailed {r : Rendering} (h : r.hasFailed = true)
    (os : List (Except RenderError String)) : r.settleAll os = r := by
  induction os with
  | nil => rfl
  | cons o os ih => rw [settleAll_cons, settle_of_hasFailed h, ih]

theorem settleAll_map_ok (r : Rendering) (ts : List String) :
    r.settleAll (ts.map .ok) = r.literal (String.join ts) := by
  induction ts generalizing r with
  | nil => exact (literal_empty r).symm
  | cons t ts ih =>
    rw [List.map_cons, settleAll_cons, ih, String.join_cons]
    exact literal_literal r t (String.join ts)

section

variable {r : Rendering} {os : List (Except RenderError String)} (hr : r.error = none)

include hr

theorem settle_ok (t : String) : r.settle (.ok t) = { r with output := r.output ++ t } := by
  simp only [settle, literal, hr]

theorem settle_error (e : RenderError) : r.settle (.error e) = { r with error := some e } := by
  simp only [settle, fail, hr]

theorem settleAll_of_joined {t : String} (h : joined os = .ok t) :
    r.settleAll os = { r with output := r.output ++ t } := by
  obtain ⟨ts, rfl, rfl⟩ := eq_map_of_joined h
  rw [settleAll_map_ok]
  exact settle_ok hr _

theorem error_settleAll {e : RenderError} (h : joined os = .error e) :
    (r.settleAll os).error = some e := by
  induction os generalizing r with
  | nil => cases h
  | cons o os ih =>
    rw [settleAll_cons]
    cases o with
    | error f =>
      rw [joined_cons_error] at h
      cases h
      rw [settle_error hr, settleAll_of_hasFailed rfl]
    | ok u =>
      rw [joined_cons_ok] at h
      rw [settle_ok hr]
      cases ho : joined os with
      | error f =>
        rw [ho] at h
        cases h
        exact ih (r := { r with output := r.output ++ u }) hr ho
      | ok v =>
        rw [ho] at h
        cases h

end

theorem value_eq (r : Rendering) (enc : Encoder) (v : Value) :
    r.value enc v = r.settle (v.written enc) := by
  unfold value Value.written
  cases v.encode? enc with
  | some o => cases o <;> rfl
  | none => exact (literal_empty r).symm

theorem elim_display? (r : Rendering) (v : Value) :
    v.display?.elim r r.literal = r.literal v.display := by
  unfold Value.display
  cases v.display? with
  | some t => rfl
  | none => exact (literal_empty r).symm

theorem pieces_eq (r : Rendering) (enc : Encoder) (name opening closing : String) (shown : Bool)
    (ps : List Piece) :
    r.pieces enc name opening shown ps =
      (r.settleAll (Segment.texts enc name opening closing
          (Segment.front shown (ps.filter (·.value.isShown)))),
        shown || !(ps.filter (·.value.isShown)).isEmpty) := by
  induction ps generalizing r shown with
  | nil =>
    rw [pieces, List.filter_nil, Segment.front]
    exact Prod.ext rfl (Bool.or_false shown).symm
  | cons p ps ih =>
    have hshown := isSome_shown? name p.value
    rw [pieces]
    cases hv : shown? name p.value with
    | none =>
      rw [hv] at hshown
      rw [List.filter_cons_of_neg (by simp [← hshown])]
      exact ih r shown
    | some v =>
      rw [hv] at hshown
      rw [List.filter_cons_of_pos (by simp [← hshown])]
      have hlead : Segment.text enc name opening closing
          (if shown then .lead p else .opening) = .ok (if shown then p.lead else opening) := by
        cases shown <;> rfl
      have hpiece (r : Rendering) :
          (if p.literal then v.display?.elim r r.literal else r.value enc v) =
            r.settle (p.body enc name) := by
        rw [Piece.body, hv, elim_display?, value_eq]
        cases p.literal <;> rfl
      simp only
      rw [hpiece, ih, Segment.front, Segment.texts, Segment.texts, List.map_cons, List.map_cons,
        settleAll_cons, settleAll_cons, hlead]
      exact Prod.ext rfl (Bool.or_true shown).symm

theorem writeAttribute_eq (r : Rendering) (enc : Encoder) (name opening closing : String)
    (ps : List Piece) :
    r.writeAttribute enc name opening closing ps =
      r.settleAll (Segment.texts enc name opening closing (Segment.all ps)) := by
  rw [writeAttribute]
  split
  · rename_i h
    exact (settleAll_of_hasFailed h _).symm
  · unfold Segment.all
    split
    · rfl
    · rw [pieces_eq r enc name opening closing]
      cases ps.filter (·.value.isShown) with
      | nil => rfl
      | cons p k =>
        show (r.settleAll _).literal closing = _
        rw [Segment.texts, Segment.texts, List.map_append, settleAll_append]
        rfl

end Rendering

/-! ## Calls -/

namespace Call

/-- The texts that a call settles once it is decoded and its operands have values. -/
def texts (s : Scope) : Call → Except RenderError (List (Except RenderError String))
  | .write a => do
    let (o, m) ← a.decode
    return [(← s.evaluate o m).written s.encoder]
  | .literal t => return [.ok (← decodeText t)]
  | .attribute name opening _ closing _ fragments => do
    let ps ← fragments.mapM (·.piece s)
    let name ← decodeText name
    let opening ← decodeText opening
    let closing ← decodeText closing
    return Segment.texts s.encoder name opening closing (Segment.all ps)
  | .fail message =>
    .error (.panicked ((decodeText message).toOption.getD failedMessage))
  | .astray => .ok []

/-- The text that a call writes, or its error. -/
def outcome (s : Scope) (c : Call) : Except RenderError String := c.texts s >>= joined

/-- What comes of a rendering whose only call this is. -/
def alone (s : Scope) (c : Call) : Except RenderError String := (Rendering.run {} s [c]).finish

section

variable {s : Scope} {c : Call}

/-- Only an encoder keeps a call from writing one of its texts. -/
theorem raises_of_mem_texts {os : List (Except RenderError String)} {e : RenderError}
    (h : c.texts s = .ok os) (he : .error e ∈ os) : s.encoder.Raises e := by
  match c with
  | .write a =>
    obtain ⟨om, -, h⟩ := eq_ok_of_bind h
    obtain ⟨v, -, h⟩ := eq_ok_of_bind h
    cases h
    exact Value.raises_of_written (List.mem_singleton.1 he).symm
  | .literal t =>
    obtain ⟨t, -, h⟩ := eq_ok_of_bind h
    cases h
    cases List.mem_singleton.1 he
  | .attribute name opening _ closing _ fragments =>
    obtain ⟨ps, -, h⟩ := eq_ok_of_bind h
    obtain ⟨n, -, h⟩ := eq_ok_of_bind h
    obtain ⟨a, -, h⟩ := eq_ok_of_bind h
    obtain ⟨b, -, h⟩ := eq_ok_of_bind h
    cases h
    exact Segment.raises_of_mem_texts he
  | .fail message => cases h
  | .astray =>
    cases h
    cases he

theorem outcome_of_texts {os : List (Except RenderError String)} (h : c.texts s = .ok os) :
    c.outcome s = joined os := by rw [outcome, h]; rfl

theorem outcome_of_texts_error {e : RenderError} (h : c.texts s = .error e) :
    c.outcome s = .error e := by rw [outcome, h]; rfl

theorem outcome_write {a : Argument} {o : Operand} {m : Mode} (ha : a.decode = .ok (o, m)) :
    (Call.write a).outcome s = s.evaluate o m >>= Value.written s.encoder := by
  rw [outcome, texts, ha]
  show (s.evaluate o m >>= fun v => pure [v.written s.encoder]) >>= joined = _
  cases s.evaluate o m with
  | error e => rfl
  | ok v => exact joined_singleton _

/-- A call fails since it has no meaning or since the encoder panics. -/
theorem outcome_eq_error {e : RenderError} (h : c.outcome s = .error e) :
    c.texts s = .error e ∨ s.encoder.Raises e := by
  cases ht : c.texts s with
  | error f =>
    rw [outcome_of_texts_error ht] at h
    cases h
    exact .inl rfl
  | ok os =>
    rw [outcome_of_texts ht] at h
    exact .inr (raises_of_mem_texts ht (mem_of_joined_eq_error h))

end

end Call

namespace Rendering

theorem write_eq (r : Rendering) (s : Scope) (o : Operand) (m : Mode) :
    r.write s o m =
      match s.evaluate o m with
      | .ok v => r.settle (v.written s.encoder)
      | .error e => r.fail e := by
  rw [write]
  split
  · rename_i h
    split
    · exact (settle_of_hasFailed h _).symm
    · exact (fail_of_hasFailed h _).symm
  · cases s.evaluate o m with
    | ok v => exact value_eq r s.encoder v
    | error e => rfl

theorem attempt_settles (r : Rendering) (s : Scope) (c : Call) :
    (match r.attempt s c with
      | .ok r' => r'
      | .error e => r.fail e) =
      match c.texts s with
      | .ok os => r.settleAll os
      | .error e => r.fail e := by
  match c with
  | .write a =>
    rw [attempt, Call.texts]
    cases a.decode with
    | error e => rfl
    | ok om =>
      refine (write_eq r s om.1 om.2).trans ?_
      obtain ⟨o, m⟩ := om
      show _ = match (s.evaluate o m) >>= fun v => pure [v.written s.encoder] with
        | .ok os => r.settleAll os
        | .error e => r.fail e
      cases s.evaluate o m <;> rfl
  | .literal t =>
    rw [attempt, Call.texts]
    cases decodeText t <;> rfl
  | .attribute name opening i closing j fragments =>
    rw [attempt, Call.texts]
    cases fragments.mapM (·.piece s) with
    | error e => rfl
    | ok ps =>
      cases decodeText name with
      | error e => rfl
      | ok name =>
        cases decodeText opening with
        | error e => rfl
        | ok opening =>
          cases decodeText closing with
          | error e => rfl
          | ok closing => exact writeAttribute_eq r s.encoder name opening closing ps
  | .fail message => rfl
  | .astray => rfl

/-- A call fails as a whole if it has no meaning, and otherwise settles its texts. -/
theorem perform_eq (r : Rendering) (s : Scope) (c : Call) :
    r.perform s c =
      match c.texts s with
      | .ok os => r.settleAll os
      | .error e => r.fail e := by
  rw [perform]
  split
  · rename_i h
    split
    · exact (settleAll_of_hasFailed h _).symm
    · exact (fail_of_hasFailed h _).symm
  · exact attempt_settles r s c

section

variable {r : Rendering} {s : Scope} {c : Call}

theorem perform_of_hasFailed (h : r.hasFailed = true) : r.perform s c = r := by
  rw [perform, if_pos h]

theorem perform_of_outcome (hr : r.error = none) {t : String} (h : c.outcome s = .ok t) :
    r.perform s c = { r with output := r.output ++ t } := by
  obtain ⟨os, hos, h⟩ := eq_ok_of_bind h
  rw [perform_eq, hos]
  exact settleAll_of_joined hr h

theorem error_perform (hr : r.error = none) {e : RenderError} (h : c.outcome s = .error e) :
    (r.perform s c).error = some e := by
  rw [perform_eq]
  cases ht : c.texts s with
  | error f =>
    rw [Call.outcome_of_texts_error ht] at h
    cases h
    simp only [fail, hr]
  | ok os =>
    rw [Call.outcome_of_texts ht] at h
    exact error_settleAll hr h

end

theorem run_cons (r : Rendering) (s : Scope) (c : Call) (cs : List Call) :
    r.run s (c :: cs) = (r.perform s c).run s cs := rfl

theorem run_of_hasFailed {r : Rendering} (h : r.hasFailed = true) (s : Scope) (cs : List Call) :
    r.run s cs = r := by
  induction cs with
  | nil => rfl
  | cons c cs ih => rw [run_cons, perform_of_hasFailed h, ih]

theorem finish_run {r : Rendering} (hr : r.error = none) (s : Scope) (cs : List Call) :
    (r.run s cs).finish =
      (cs.mapM (Call.outcome s)).map fun ts => r.output ++ String.join ts := by
  induction cs generalizing r with
  | nil =>
    rw [run, List.foldl_nil, finish, hr, List.mapM_nil]
    exact congrArg Except.ok String.append_empty.symm
  | cons c cs ih =>
    rw [run_cons, List.mapM_cons]
    cases ho : c.outcome s with
    | error e =>
      have herror := error_perform hr ho
      rw [run_of_hasFailed (by rw [hasFailed, herror, Option.isSome_some]), finish, herror]
      rfl
    | ok t =>
      rw [perform_of_outcome hr ho, ih (r := { r with output := r.output ++ t }) hr]
      cases cs.mapM (Call.outcome s) with
      | error e => rfl
      | ok ts =>
        refine congrArg Except.ok ?_
        show r.output ++ t ++ String.join ts = r.output ++ String.join (t :: ts)
        rw [String.join_cons, String.append_assoc]

end Rendering

theorem Call.alone_eq_outcome (s : Scope) (c : Call) : c.alone s = c.outcome s := by
  rw [alone, Rendering.finish_run rfl, List.mapM_cons, List.mapM_nil]
  cases c.outcome s with
  | error e => rfl
  | ok t =>
    refine congrArg Except.ok ?_
    show "" ++ String.join [t] = t
    rw [String.join_cons, String.join_nil, String.append_empty, String.empty_append]

/-- What has been written in front of the piece on which an encoder panics stays. -/
example :
    Rendering.perform {} ⟨.null, ∅, ⟨fun _ => .error "no"⟩⟩ (.attribute ([0x63]) [0x63, 0x3D] 1 [] 9
        [⟨[], 3, ⟨1, 0, [0x79]⟩, 3, true⟩, ⟨[], 4, ⟨1, 0, [0x7A]⟩, 4, false⟩]) =
      { output := "c=y", error := some (.panicked "no") } := by decide

end Sigil.Render
