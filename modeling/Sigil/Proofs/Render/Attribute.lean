import Sigil.Proofs.Render.Markup

/-!
# What an attribute shows

An attribute keeps the pieces whose value is neither null nor false. It is the opening, the first
piece that is kept, the others behind their own blanks, and the closing; pieces that are not kept
change nothing unless no other piece is there (`writeAttribute_law`). A piece that is not kept
leaves the attribute as it was, wherever it stands, and whether it is kept is a matter of its value
and not of its text. So a mode that makes a text of false brings it to light, which it does with no
other value (`suppressed_evaluate_iff`).
-/

namespace Sigil.Render

/-! ## Kept pieces -/

namespace Piece

/-- A piece as the attribute `name` shows it: null and false are left out, and true is the name. -/
def kept? (name : String) (p : Piece) : Option Piece :=
  match p.value with
  | .json .null => none
  | .json (.bool false) => none
  | .json (.bool true) => some { p with value := .str name }
  | _ => some p

/-- What a piece that is kept writes: text of the template as it is, and any other value encoded. -/
def text (enc : Encoder) (p : Piece) : Except RenderError String :=
  if p.literal then .ok p.value.display else p.value.written enc

theorem kept?_cases (name : String) (p : Piece) :
    (p.kept? name = none ∧ p.value.isShown = false) ∨
      ∃ q, p.kept? name = some q ∧ p.value.isShown = true ∧ q.lead = p.lead ∧
        ∀ enc, q.text enc = p.body enc name := by
  obtain ⟨lead, v, literal⟩ := p
  cases v with
  | encoded e => exact .inr ⟨_, rfl, rfl, rfl, fun _ => rfl⟩
  | json j =>
    cases j with
    | null => exact .inl ⟨rfl, rfl⟩
    | bool b =>
      cases b with
      | false => exact .inl ⟨rfl, rfl⟩
      | true => exact .inr ⟨_, rfl, rfl, rfl, fun _ => rfl⟩
    | _ => exact .inr ⟨_, rfl, rfl, rfl, fun _ => rfl⟩

end Piece

/-! ## The text of an attribute -/

/-- The texts of an attribute that keeps these of its pieces. -/
def keptTexts (enc : Encoder) (opening closing : String) :
    List Piece → List (Except RenderError String)
  | [] => []
  | p :: ps =>
    .ok opening :: p.text enc :: ps.flatMap (fun q => [.ok q.lead, q.text enc]) ++ [.ok closing]

def attributeTexts (enc : Encoder) (name opening closing : String) :
    List Piece → List (Except RenderError String)
  | [] => [.ok opening, .ok closing]
  | p :: ps => keptTexts enc opening closing ((p :: ps).filterMap (Piece.kept? name))

section

variable (enc : Encoder) (name opening closing : String)

theorem texts_front (ps : List Piece) :
    Segment.texts enc name opening closing (Segment.front true (ps.filter (·.value.isShown))) =
      (ps.filterMap (Piece.kept? name)).flatMap fun q => [.ok q.lead, q.text enc] := by
  induction ps with
  | nil => rfl
  | cons p ps ih =>
    rcases p.kept?_cases name with ⟨h, hs⟩ | ⟨q, h, hs, hlead, htext⟩
    · rw [List.filter_cons_of_neg (by simp [hs]), List.filterMap_cons_none h, ih]
    · rw [List.filter_cons_of_pos (by simpa using hs), List.filterMap_cons_some h,
        List.flatMap_cons, ← ih, hlead, htext]
      rfl

theorem texts_shown (ps : List Piece) :
    Segment.texts enc name opening closing
        (match ps.filter (·.value.isShown) with
          | [] => []
          | p :: k => Segment.front false (p :: k) ++ [.closing]) =
      keptTexts enc opening closing (ps.filterMap (Piece.kept? name)) := by
  induction ps with
  | nil => rfl
  | cons p ps ih =>
    rcases p.kept?_cases name with ⟨h, hs⟩ | ⟨q, h, hs, -, htext⟩
    · rw [List.filter_cons_of_neg (by simp [hs]), List.filterMap_cons_none h, ih]
    · rw [List.filter_cons_of_pos (by simpa using hs), List.filterMap_cons_some h, keptTexts,
        ← texts_front enc name opening closing, htext, Segment.texts, List.map_append]
      rfl

theorem texts_all (ps : List Piece) :
    Segment.texts enc name opening closing (Segment.all ps) =
      attributeTexts enc name opening closing ps := by
  cases ps with
  | nil => rfl
  | cons p ps => exact texts_shown enc name opening closing (p :: ps)

theorem attributeTexts_of_ne_nil {ps : List Piece} (h : ps ≠ []) :
    attributeTexts enc name opening closing ps =
      keptTexts enc opening closing (ps.filterMap (Piece.kept? name)) := by
  obtain ⟨p, ps, rfl⟩ := List.exists_cons_of_ne_nil h
  rfl

theorem attributeTexts_without {gone : List Piece} (hg : ∀ p ∈ gone, p.kept? name = none)
    {ps qs : List Piece} (h : ps ++ qs ≠ []) :
    attributeTexts enc name opening closing (ps ++ gone ++ qs) =
      attributeTexts enc name opening closing (ps ++ qs) := by
  have hmore : ps ++ gone ++ qs ≠ [] := fun hn => h (by simp_all)
  have hnone : gone.filterMap (Piece.kept? name) = [] := List.filterMap_eq_nil_iff.2 hg
  rw [attributeTexts_of_ne_nil enc name opening closing hmore,
    attributeTexts_of_ne_nil enc name opening closing h, List.filterMap_append,
    List.filterMap_append, List.filterMap_append, hnone, List.append_nil]

theorem exists_attributeTexts {enc : Encoder} (h : enc.Total) (ps : List Piece) :
    ∃ ts : List String, attributeTexts enc name opening closing ps = ts.map .ok := by
  cases hj : joined (attributeTexts enc name opening closing ps) with
  | ok t =>
    obtain ⟨ts, hts, -⟩ := eq_map_of_joined hj
    exact ⟨ts, hts⟩
  | error e =>
    have he := mem_of_joined_eq_error hj
    rw [← texts_all] at he
    exact absurd (Segment.raises_of_mem_texts he) (h.not_raises e)

end

/-- An attribute writes the texts of what is kept of its pieces, up to one on which the encoder
panics and all of them if it encodes every text, whatever is left out in between. -/
theorem writeAttribute_law (r : Rendering) (enc : Encoder) (name opening closing : String) :
    (∀ ps, r.writeAttribute enc name opening closing ps =
      r.settleAll (attributeTexts enc name opening closing ps)) ∧
    (enc.Total → ∀ ps, ∃ ts : List String,
      attributeTexts enc name opening closing ps = ts.map .ok ∧
        r.writeAttribute enc name opening closing ps = r.literal (String.join ts)) ∧
    ∀ ps gone qs, (∀ p ∈ gone, p.kept? name = none) → ps ++ qs ≠ [] →
      r.writeAttribute enc name opening closing (ps ++ gone ++ qs) =
        r.writeAttribute enc name opening closing (ps ++ qs) := by
  have hwrite (ps : List Piece) : r.writeAttribute enc name opening closing ps =
      r.settleAll (attributeTexts enc name opening closing ps) := by
    rw [Rendering.writeAttribute_eq, texts_all]
  refine ⟨hwrite, fun htotal ps => ?_, fun ps gone qs hg h => ?_⟩
  · obtain ⟨ts, hts⟩ := exists_attributeTexts name opening closing htotal ps
    exact ⟨ts, hts, by rw [hwrite, hts, Rendering.settleAll_map_ok]⟩
  · rw [hwrite, hwrite, attributeTexts_without enc name opening closing hg h]

/-- Null and false between text of the template and a value. -/
theorem null_and_false_between :
    let gone : List Piece := [⟨" ", .json .null, false⟩, ⟨" ", .json (.bool false), false⟩]
    let p : Piece := ⟨"", .str "a&b", true⟩
    let q : Piece := ⟨" ", .json (.bool true), false⟩
    (Encoder.html.Total ∧ (∀ g ∈ gone, g.kept? "c" = none) ∧ [p] ++ [q] ≠ []) ∧
      (∃ ts : List String, attributeTexts .html "c" " c='" "'" ([p] ++ [q]) = ts.map .ok) ∧
      Rendering.writeAttribute {} .html "c" " c='" "'" ([p] ++ gone ++ [q]) =
        { output := " c='a&b c'" } := by
  intro gone p q
  have hg : ∀ g ∈ gone, g.kept? "c" = none := by
    simp only [gone, List.mem_cons, List.not_mem_nil, or_false, forall_eq_or_imp, forall_eq]
    exact ⟨rfl, rfl⟩
  have h : [p] ++ [q] ≠ [] := List.cons_ne_nil p [q]
  obtain ⟨hwrite, htexts, hgone⟩ := writeAttribute_law {} .html "c" " c='" "'"
  obtain ⟨ts, hts, -⟩ := htexts Encoder.html_total ([p] ++ [q])
  refine ⟨⟨Encoder.html_total, hg, h⟩, ⟨ts, hts⟩, ?_⟩
  rw [hgone [p] gone [q] hg h, hwrite]
  decide

/-! ## Modes -/

/-- A piece that the attribute `name` leaves out: it adds neither blanks nor text, whatever stands
around it. -/
def Piece.Suppressed (enc : Encoder) (name : String) (p : Piece) : Prop :=
  ∀ (r : Rendering) (opening : String) (shown : Bool) (ps : List Piece),
    r.pieces enc name opening shown (p :: ps) = r.pieces enc name opening shown ps

theorem Piece.suppressed_iff {enc : Encoder} {name : String} {p : Piece} :
    p.Suppressed enc name ↔ p.value.isShown = false := by
  constructor
  · intro h
    -- Alone and in front, a piece that is shown would leave its mark in the flag.
    have halone := congrArg Prod.snd (h {} "" false [])
    rw [Rendering.pieces_eq {} enc name "" "", Rendering.pieces_eq {} enc name "" ""] at halone
    cases hs : p.value.isShown with
    | false => rfl
    | true => simp [hs] at halone
  · intro h r opening shown ps
    rw [Rendering.pieces_eq r enc name opening "", Rendering.pieces_eq r enc name opening "",
      List.filter_cons_of_neg (by simp [h])]

theorem isNull_of_bool?_some {v : Value} {b : Bool} (h : v.bool? = some b) : v.isNull = false := by
  match v, h with
  | .json (.bool _), _ => rfl

theorem isShown_eq_false_iff {v : Value} :
    v.isShown = false ↔ v.isNull = true ∨ v.bool? = some false := by
  cases hn : v.isNull <;> simp [Value.isShown, hn]

theorem isShown_encoded (e : Encoded) : (Value.encoded e).isShown = true := rfl

/-- A mode keeps null, and with a text of its own every other value is shown. -/
theorem isShown_apply_eq_false_iff {m : Mode} {v : Value} :
    (m.apply v).isShown = false ↔ v.isNull = true ∨ m = .plain ∧ v.bool? = some false := by
  cases hd : v.display? with
  | none =>
    have hnull := Value.display?_eq_none_iff.1 hd
    rw [Mode.apply_of_display?_none hd, isShown_eq_false_iff]
    simp [hnull]
  | some d =>
    have hnull : v.isNull ≠ true := fun hn => by
      rw [Value.display?_eq_none_iff.2 hn] at hd
      cases hd
    cases m with
    | plain =>
      rw [Mode.apply_plain, isShown_eq_false_iff]
      simp
    | raw =>
      rw [Mode.apply_raw hd, isShown_encoded]
      simp [hnull]
    | encode =>
      rw [Mode.apply_encode hd, isShown_encoded]
      simp [hnull]

/-- An operand with a value has one in every mode. The piece that it makes is left out if the value
is null, and without an encoding of its own if it is false; so modes agree except about false. -/
theorem suppressed_evaluate_iff {s : Scope} {o : Operand} {v : Value}
    (h : s.evaluate o .plain = .ok v) (m : Mode) :
    ∃ w, s.evaluate o m = .ok w ∧
      ∀ (enc : Encoder) (name lead : String),
        (Piece.Suppressed enc name ⟨lead, w, false⟩ ↔
          v.isNull = true ∨ m = .plain ∧ v.bool? = some false) ∧
        ((Piece.Suppressed enc name ⟨lead, w, false⟩ ↔ Piece.Suppressed enc name ⟨lead, v, false⟩) ↔
          m = .plain ∨ v.bool? ≠ some false) := by
  obtain ⟨j, hj, rfl⟩ := evaluate_eq_ok h
  rw [Mode.apply_plain]
  refine ⟨m.apply (.json j), by rw [Scope.evaluate, hj]; rfl, fun enc name lead => ?_⟩
  rw [Piece.suppressed_iff, Piece.suppressed_iff]
  refine ⟨isShown_apply_eq_false_iff, ?_⟩
  rw [isShown_apply_eq_false_iff, isShown_eq_false_iff]
  by_cases hb : (Value.json j).bool? = some false
  · have hnull : (Value.json j).isNull = false := isNull_of_bool?_some hb
    simp [hb, hnull]
  · simp [hb]

/-- A member that is missing from the side values is null in a mode with an encoding of its own. -/
theorem null_stays_left_out :
    let s : Scope := ⟨.obj [], ∅, .html⟩
    let o : Operand := .path "TemplateData.x"
    s.evaluate o .plain = .ok (.json .null) ∧
      ∃ w, s.evaluate o .encode = .ok w ∧
        ∀ enc name lead, Piece.Suppressed enc name ⟨lead, w, false⟩ := by
  intro s o
  have h : s.evaluate o .plain = .ok (.json .null) := rfl
  obtain ⟨w, hw, hpiece⟩ := suppressed_evaluate_iff h .encode
  exact ⟨h, w, hw, fun enc name lead => (hpiece enc name lead).1.2 (.inl rfl)⟩

/-- False as the value of a member, in each of the two modes. -/
theorem raw_brings_false_to_light :
    let s : Scope := ⟨.obj [("x", .bool false)], ∅, .html⟩
    let plain : Piece := ⟨"", .json (.bool false), false⟩
    let raw : Piece := ⟨"", .encoded (.raw "false"), false⟩
    s.evaluate (.path "x") .plain = .ok plain.value ∧ s.evaluate (.path "x") .raw = .ok raw.value ∧
      plain.Suppressed .html "a" ∧ ¬ raw.Suppressed .html "a" ∧
      Rendering.writeAttribute {} .html "a" " a='" "'" [plain] = {} ∧
      Rendering.writeAttribute {} .html "a" " a='" "'" [raw] = { output := " a='false'" } := by
  intro s plain raw
  have hraw : ¬ raw.Suppressed .html "a" := by
    rw [Piece.suppressed_iff]
    nofun
  exact ⟨rfl, rfl, Piece.suppressed_iff.2 rfl, hraw, by decide, by decide⟩

end Sigil.Render
