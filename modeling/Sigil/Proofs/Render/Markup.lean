import Mathlib.Data.List.Forall2
import Sigil.Proofs.Render.Entity
import Sigil.Proofs.Render.Outcome

/-!
# Markup comes from templates only

What a value contributes to the output is its text as its mode says: the text itself if it is raw,
and otherwise a text without markup whenever the mode or the encoder asks for entities
(`writes_written`). Everything else that a call writes stands in the call as it is
(`values_add_no_markup`).
-/

namespace Sigil.Render

/-- `t` is what a mode writes for a value with the text `d?`; a value without text writes nothing. -/
def Mode.Writes (m : Mode) (enc : Encoder) (d? : Option String) (t : String) : Prop :=
  match d? with
  | none => t = ""
  | some d =>
    (m = .plain → ∃ w, enc.encode d = .ok w ∧ t = w.text) ∧
    (m = .raw → t = d) ∧
    (m = .encode ∨ m = .plain ∧ enc = .html → Encodes d t)

namespace Mode

theorem apply_of_display?_none {v : Value} (h : v.display? = none) (m : Mode) : m.apply v = v := by
  cases m <;> simp only [apply, h]

theorem apply_plain (v : Value) : plain.apply v = v := by simp only [apply]

theorem apply_raw {v : Value} {d : String} (h : v.display? = some d) :
    raw.apply v = .encoded (.raw d) := by simp only [apply, h]

theorem apply_encode {v : Value} {d : String} (h : v.display? = some d) :
    encode.apply v = .encoded (.ofText d) := by simp only [apply, h]

variable (enc : Encoder)

theorem writes_plain {d : String} {w : Encoded} (hw : enc.encode d = .ok w) :
    Writes .plain enc (some d) w.text := by
  refine ⟨fun _ => ⟨w, hw, rfl⟩, nofun, ?_⟩
  rintro (h | ⟨-, rfl⟩)
  · cases h
  · cases hw
    exact encodes_encodeEntities d

theorem writes_raw (d : String) : Writes .raw enc (some d) d := by
  refine ⟨nofun, fun _ => rfl, ?_⟩
  rintro (h | ⟨h, -⟩) <;> cases h

theorem writes_encode (d : String) : Writes .encode enc (some d) (Encoded.ofText d).text :=
  ⟨nofun, nofun, fun _ => encodes_encodeEntities d⟩

variable {enc}

theorem Writes.eq_getD {d? : Option String} {t : String} (h : Writes .raw enc d? t) :
    t = d?.getD "" := by
  cases d? with
  | none => exact h
  | some d => exact h.2.1 rfl

theorem Writes.markupFree {m : Mode} {d? : Option String} {t : String} (h : m.Writes enc d? t)
    (hm : m = .encode ∨ m = .plain ∧ enc = .html) : MarkupFree t := by
  cases d? with
  | none =>
    have ht : t = "" := h
    rw [ht]
    exact nofun
  | some d => exact (h.2.2 hm).markupFree

end Mode

/-- What is written of a JSON value with a text is the text encoded. -/
theorem eq_text_of_written {j : Json} {d : String} (hd : (Value.json j).display? = some d)
    {enc : Encoder} {t : String} (h : (Value.json j).written enc = .ok t) :
    ∃ w, enc.encode d = .ok w ∧ t = w.text := by
  rw [Value.written, Value.encode?, hd] at h
  cases hw : enc.encode d with
  | error m =>
    simp only [Option.map_some, hw] at h
    cases h
  | ok w =>
    simp only [Option.map_some, hw] at h
    cases h
    exact ⟨w, rfl, rfl⟩

theorem writes_of_written {m : Mode} {enc : Encoder} {j : Json} {t : String}
    (h : (m.apply (.json j)).written enc = .ok t) : m.Writes enc (Value.json j).display? t := by
  cases hd : (Value.json j).display? with
  | none =>
    rw [Mode.apply_of_display?_none hd, Value.written, Value.encode?, hd] at h
    cases h
    exact rfl
  | some d =>
    cases m with
    | plain =>
      rw [Mode.apply_plain] at h
      obtain ⟨w, hw, rfl⟩ := eq_text_of_written hd h
      exact Mode.writes_plain enc hw
    | raw =>
      rw [Mode.apply_raw hd] at h
      cases h
      exact Mode.writes_raw enc d
    | encode =>
      rw [Mode.apply_encode hd] at h
      cases h
      exact Mode.writes_encode enc d

theorem eq_json_of_value {s : Scope} {o : Operand} {v : Value} (h : s.value o = .ok v) :
    ∃ j, v = .json j := by
  cases o with
  | path p =>
    obtain ⟨j, -, rfl⟩ := eq_ok_of_map h
    exact ⟨j, rfl⟩
  | number t =>
    rw [Scope.value] at h
    cases hn : number? t with
    | none =>
      rw [hn] at h
      cases h
    | some n =>
      rw [hn] at h
      cases h
      exact ⟨_, rfl⟩
  | str t =>
    cases h
    exact ⟨_, rfl⟩
  | bool b =>
    cases h
    exact ⟨_, rfl⟩
  | null =>
    cases h
    exact ⟨_, rfl⟩

theorem evaluate_eq_ok {s : Scope} {o : Operand} {m : Mode} {w : Value}
    (h : s.evaluate o m = .ok w) : ∃ j, s.value o = .ok (.json j) ∧ w = m.apply (.json j) := by
  obtain ⟨v, hv, rfl⟩ := eq_ok_of_map h
  obtain ⟨j, rfl⟩ := eq_json_of_value hv
  exact ⟨j, hv, rfl⟩

theorem outcome_write_eq_ok {s : Scope} {a : Argument} {t : String}
    (h : (Call.write a).outcome s = .ok t) :
    ∃ o m v, a.decode = .ok (o, m) ∧ s.value o = .ok v ∧ m.Writes s.encoder v.display? t := by
  obtain ⟨os, hos, h⟩ := eq_ok_of_bind h
  obtain ⟨⟨o, m⟩, ha, hos⟩ := eq_ok_of_bind hos
  obtain ⟨w, hw, hos⟩ := eq_ok_of_bind hos
  cases hos
  rw [joined_singleton] at h
  obtain ⟨j, hv, rfl⟩ := evaluate_eq_ok hw
  exact ⟨o, m, _, ha, hv, writes_of_written h⟩

/-! ## Pieces -/

theorem shown?_of_bool?_none {v : Value} (hn : v.isNull = false) (hb : v.bool? = none)
    (name : String) : Rendering.shown? name v = some v := by
  simp [Rendering.shown?, hn, hb]

theorem shown?_of_bool?_true {v : Value} (hb : v.bool? = some true) (name : String) :
    Rendering.shown? name v = some (.str name) := by
  match v, hb with
  | .json (.bool true), _ => rfl

theorem body_literal {p : Piece} {t : String} (hl : p.literal = true) (hv : p.value = .str t)
    (enc : Encoder) (name : String) : p.body enc name = .ok t := by
  rw [Piece.body, hv, shown?_of_bool?_none rfl rfl]
  simp only [hl, if_true]
  rfl

theorem body_value {p : Piece} {v : Value} {enc : Encoder} {name : String}
    (hl : p.literal = false) (hs : Rendering.shown? name p.value = some v) :
    p.body enc name = v.written enc := by
  simp [Piece.body, hs, hl]

theorem body_apply {p : Piece} {m : Mode} {j : Json} (hl : p.literal = false)
    (hv : p.value = m.apply (.json j)) (hs : p.value.isShown = true) {enc : Encoder}
    {name t : String} (ht : p.body enc name = .ok t) :
    (m = .plain ∧ (Value.json j).bool? = some true ∧ m.Writes enc (some name) t) ∨
    (m = .plain → (Value.json j).bool? = none) ∧
      ∃ d, (Value.json j).display? = some d ∧ m.Writes enc (some d) t := by
  cases hd : (Value.json j).display? with
  | none =>
    have hnull := Value.display?_eq_none_iff.1 hd
    rw [hv, Mode.apply_of_display?_none hd, Value.isShown, hnull] at hs
    cases hs
  | some d =>
    cases m with
    | raw =>
      rw [Mode.apply_raw hd] at hv
      rw [body_value hl (by rw [hv]; exact shown?_of_bool?_none rfl rfl name)] at ht
      cases ht
      exact .inr ⟨nofun, d, rfl, Mode.writes_raw enc d⟩
    | encode =>
      rw [Mode.apply_encode hd] at hv
      rw [body_value hl (by rw [hv]; exact shown?_of_bool?_none rfl rfl name)] at ht
      cases ht
      exact .inr ⟨nofun, d, rfl, Mode.writes_encode enc d⟩
    | plain =>
      rw [Mode.apply_plain] at hv
      cases hb : (Value.json j).bool? with
      | none =>
        have hnull : (Value.json j).isNull = false := by
          rw [← Bool.not_eq_true, ← Value.display?_eq_none_iff, hd]
          nofun
        rw [body_value hl (by rw [hv]; exact shown?_of_bool?_none hnull hb name)] at ht
        obtain ⟨w, hw, rfl⟩ := eq_text_of_written hd ht
        exact .inr ⟨fun _ => rfl, d, rfl, Mode.writes_plain enc hw⟩
      | some b =>
        cases b with
        | false =>
          rw [hv, Value.isShown, hb] at hs
          simp at hs
        | true =>
          rw [body_value hl (by rw [hv]; exact shown?_of_bool?_true hb name)] at ht
          obtain ⟨w, hw, rfl⟩ := eq_text_of_written rfl ht
          exact .inl ⟨rfl, rfl, Mode.writes_plain enc hw⟩

/-! ## Attributes -/

/-- What the segments of an attribute may write: the opening, the closing and the blanks in front of
a piece stand in the call, and so does a piece of text. Any other piece writes the value of its
fragment as the mode says, the attribute's name in place of true. -/
inductive Contributes (s : Scope) (name opening closing : List UInt8)
    (fragments : List FragmentArgument) : Segment → String → Prop where
  | opening {t : String} (h : decodeText opening = .ok t) :
      Contributes s name opening closing fragments .opening t
  | closing {t : String} (h : decodeText closing = .ok t) :
      Contributes s name opening closing fragments .closing t
  | lead {f : FragmentArgument} {p : Piece} {t : String} (hf : f ∈ fragments)
      (hp : f.piece s = .ok p) (h : decodeText f.lead = .ok t) :
      Contributes s name opening closing fragments (.lead p) t
  | literal {f : FragmentArgument} {p : Piece} {t : String} (hf : f ∈ fragments)
      (hp : f.piece s = .ok p) (hl : f.literal = true) (h : decodeText f.value.text = .ok t) :
      Contributes s name opening closing fragments (.body p) t
  | value {f : FragmentArgument} {p : Piece} {o : Operand} {m : Mode} {v : Value} {d t : String}
      (hf : f ∈ fragments) (hp : f.piece s = .ok p) (hl : f.literal = false)
      (ha : f.value.decode = .ok (o, m)) (hv : s.value o = .ok v)
      (hb : m = .plain → v.bool? = none) (hd : v.display? = some d)
      (ht : m.Writes s.encoder (some d) t) :
      Contributes s name opening closing fragments (.body p) t
  | name {f : FragmentArgument} {p : Piece} {o : Operand} {v : Value} {d t : String}
      (hf : f ∈ fragments) (hp : f.piece s = .ok p) (hl : f.literal = false)
      (ha : f.value.decode = .ok (o, .plain)) (hv : s.value o = .ok v) (hb : v.bool? = some true)
      (hd : decodeText name = .ok d) (ht : Mode.Writes .plain s.encoder (some d) t) :
      Contributes s name opening closing fragments (.body p) t

theorem piece_eq_ok {s : Scope} {f : FragmentArgument} {p : Piece} (h : f.piece s = .ok p) :
    decodeText f.lead = .ok p.lead ∧ p.literal = f.literal ∧
      (f.literal = true → ∃ t, decodeText f.value.text = .ok t ∧ p.value = .str t) ∧
      (f.literal = false → ∃ o m j, f.value.decode = .ok (o, m) ∧ s.value o = .ok (.json j) ∧
        p.value = m.apply (.json j)) := by
  obtain ⟨lead, hlead, h⟩ := eq_ok_of_bind h
  cases hl : f.literal with
  | true =>
    rw [hl] at h
    obtain ⟨t, ht, h⟩ := eq_ok_of_bind h
    cases h
    exact ⟨hlead, rfl, fun _ => ⟨t, ht, rfl⟩, nofun⟩
  | false =>
    rw [hl] at h
    obtain ⟨⟨o, m⟩, ha, h⟩ := eq_ok_of_bind h
    obtain ⟨w, hw, h⟩ := eq_ok_of_bind h
    cases h
    obtain ⟨j, hv, rfl⟩ := evaluate_eq_ok hw
    exact ⟨hlead, rfl, nofun, fun _ => ⟨o, m, j, ha, hv, rfl⟩⟩

theorem mem_front {g : Segment} {shown : Bool} {ps : List Piece}
    (h : g ∈ Segment.front shown ps) : g = .opening ∨ ∃ p ∈ ps, g = .lead p ∨ g = .body p := by
  induction ps generalizing shown with
  | nil => cases h
  | cons p ps ih =>
    rw [Segment.front, List.mem_cons, List.mem_cons] at h
    rcases h with rfl | rfl | h
    · cases shown with
      | true => exact .inr ⟨p, List.mem_cons_self, .inl rfl⟩
      | false => exact .inl rfl
    · exact .inr ⟨p, List.mem_cons_self, .inr rfl⟩
    · rcases ih h with hg | ⟨q, hq, hg⟩
      · exact .inl hg
      · exact .inr ⟨q, List.mem_cons_of_mem p hq, hg⟩

/-- A segment is the opening, the closing, or belongs to a piece that is shown. -/
theorem mem_all {g : Segment} {ps : List Piece} (h : g ∈ Segment.all ps) :
    g = .opening ∨ g = .closing ∨
      ∃ p ∈ ps, p.value.isShown = true ∧ (g = .lead p ∨ g = .body p) := by
  unfold Segment.all at h
  split at h
  · simp only [List.mem_cons, List.not_mem_nil, or_false] at h
    exact h.imp id .inl
  · split at h
    · cases h
    · rename_i p k hk
      rw [List.mem_append, List.mem_singleton] at h
      rcases h with h | h
      · rcases mem_front h with hg | ⟨q, hq, hg⟩
        · exact .inl hg
        · rw [← hk, List.mem_filter] at hq
          exact .inr (.inr ⟨q, hq.1, hq.2, hg⟩)
      · exact .inr (.inl h)

theorem contributes_of_text {s : Scope} {name opening closing : List UInt8}
    {fragments : List FragmentArgument} {ps : List Piece} {n a b : String}
    (hps : fragments.mapM (·.piece s) = .ok ps) (hname : decodeText name = .ok n)
    (hopening : decodeText opening = .ok a) (hclosing : decodeText closing = .ok b) {g : Segment}
    (hg : g ∈ Segment.all ps) {t : String} (ht : g.text s.encoder n a b = .ok t) :
    Contributes s name opening closing fragments g t := by
  rcases mem_all hg with rfl | rfl | ⟨p, hp, hshown, hg⟩
  · cases ht
    exact .opening hopening
  · cases ht
    exact .closing hclosing
  · obtain ⟨f, hf, hpiece⟩ := mem_of_mapM hps p hp
    obtain ⟨hlead, hl, hliteral, hvalue⟩ := piece_eq_ok hpiece
    rcases hg with rfl | rfl
    · cases ht
      exact .lead hf hpiece hlead
    · rw [Segment.text] at ht
      cases hfl : f.literal with
      | true =>
        obtain ⟨u, hu, hv⟩ := hliteral hfl
        rw [body_literal (hl.trans hfl) hv] at ht
        cases ht
        exact .literal hf hpiece hfl hu
      | false =>
        obtain ⟨o, m, v, ha, hv, hp⟩ := hvalue hfl
        rcases body_apply (hl.trans hfl) hp hshown ht with ⟨rfl, hb, ht⟩ | ⟨hb, d, hd, ht⟩
        · exact .name hf hpiece hfl ha hv hb hname ht
        · exact .value hf hpiece hfl ha hv hb hd ht

theorem outcome_attribute_eq_ok {s : Scope} {name opening closing : List UInt8} {i j : Nat}
    {fragments : List FragmentArgument} {t : String}
    (h : (Call.attribute name opening i closing j fragments).outcome s = .ok t) :
    ∃ ps parts, fragments.mapM (·.piece s) = .ok ps ∧ t = String.join parts ∧
      List.Forall₂ (Contributes s name opening closing fragments) (Segment.all ps) parts := by
  obtain ⟨os, hos, h⟩ := eq_ok_of_bind h
  obtain ⟨ps, hps, hos⟩ := eq_ok_of_bind hos
  obtain ⟨n, hname, hos⟩ := eq_ok_of_bind hos
  obtain ⟨a, hopening, hos⟩ := eq_ok_of_bind hos
  obtain ⟨b, hclosing, hos⟩ := eq_ok_of_bind hos
  cases hos
  obtain ⟨parts, htexts, rfl⟩ := eq_map_of_joined h
  refine ⟨ps, parts, hps, rfl, ?_⟩
  have heq : List.Forall₂ (· = ·) ((Segment.all ps).map (Segment.text s.encoder n a b))
      (parts.map .ok) := List.forall₂_eq_eq_eq ▸ htexts
  have htext := List.forall₂_map_right_iff.1 (List.forall₂_map_left_iff.1 heq)
  exact ((List.forall₂_and_left _ _).2 ⟨fun g hg => hg, htext⟩).imp fun g t ⟨hg, ht⟩ =>
    contributes_of_text hps hname hopening hclosing hg ht

/-- Values add no markup: a call for an operand writes the text of its value as its mode says, and
an attribute writes one part for each of its segments, which is a text of the call itself or the
value of a fragment as its mode says. -/
theorem values_add_no_markup (s : Scope) :
    (∀ (a : Argument) (t : String), (Call.write a).alone s = .ok t →
      ∃ o m v, a.decode = .ok (o, m) ∧ s.value o = .ok v ∧ m.Writes s.encoder v.display? t) ∧
    ∀ (name opening closing : List UInt8) (i j : Nat) (fragments : List FragmentArgument)
      (t : String), (Call.attribute name opening i closing j fragments).alone s = .ok t →
      ∃ ps parts, fragments.mapM (·.piece s) = .ok ps ∧ t = String.join parts ∧
        List.Forall₂ (Contributes s name opening closing fragments) (Segment.all ps) parts := by
  refine ⟨fun a t h => ?_, fun name opening closing i j fragments t h => ?_⟩
  · rw [Call.alone_eq_outcome] at h
    exact outcome_write_eq_ok h
  · rw [Call.alone_eq_outcome] at h
    exact outcome_attribute_eq_ok h

/-- A value with markup, and an attribute whose name has some and stands in place of true. -/
theorem markup_in_values_and_name :
    let s : Scope := ⟨.obj [("a", .str "<b>"), ("t", .bool true)], ∅, .html⟩
    let a : Argument := ⟨0, 0, [0x61]⟩
    let name : List UInt8 := [0x3C]
    let fragments : List FragmentArgument :=
      [⟨[], 3, ⟨1, 0, [0x26]⟩, 3, true⟩, ⟨[0x20], 4, ⟨0, 0, [0x74]⟩, 5, false⟩,
        ⟨[0x20], 7, ⟨0, 1, [0x61]⟩, 8, false⟩]
    ((Call.write a).alone s = .ok "&lt;b&gt;" ∧
      (Call.attribute name [0x3D] 1 [0x3B] 10 fragments).alone s = .ok "=& &lt; <b>;") ∧
    (∃ o m v, a.decode = .ok (o, m) ∧ s.value o = .ok v ∧
      m.Writes s.encoder v.display? "&lt;b&gt;") ∧
    ∃ ps parts, fragments.mapM (·.piece s) = .ok ps ∧ "=& &lt; <b>;" = String.join parts ∧
      List.Forall₂ (Contributes s name [0x3D] [0x3B] fragments) (Segment.all ps) parts := by
  intro s a name fragments
  have hwrite : (Call.write a).alone s = .ok "&lt;b&gt;" := rfl
  have hattribute : (Call.attribute name [0x3D] 1 [0x3B] 10 fragments).alone s =
      .ok "=& &lt; <b>;" := rfl
  exact ⟨⟨hwrite, hattribute⟩, (values_add_no_markup s).1 a _ hwrite,
    (values_add_no_markup s).2 name _ _ 1 10 fragments _ hattribute⟩

end Sigil.Render
