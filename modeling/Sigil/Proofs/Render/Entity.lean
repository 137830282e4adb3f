import Sigil.Render.Encoding

/-!
# Entities in encoded text

Text with its markup encoded holds no markup, every ampersand in it begins an entity, and with the
entities read back it is the text that was encoded (`encodes_encodeEntities`).
-/

namespace Sigil.Render

/-- A character that begins or ends a tag or a quoted attribute value. -/
def isMarkup (c : Char) : Bool := c = '<' || c = '>' || c = '"' || c = '\''

def MarkupFree (t : String) : Prop := ∀ c ∈ t.toList, isMarkup c = false

instance (t : String) : Decidable (MarkupFree t) :=
  List.decidableBAll (isMarkup · = false) t.toList

/-- The five characters that have an entity, each with it. -/
def entityTable : List (Char × List Char) :=
  [('&', "&amp;".toList), ('<', "&lt;".toList), ('>', "&gt;".toList), ('"', "&quot;".toList),
    ('\'', "&#x27;".toList)]

/-- A text with every entity read as its character. -/
def decodeEntities : List Char → List Char
  | '&' :: 'a' :: 'm' :: 'p' :: ';' :: r => '&' :: decodeEntities r
  | '&' :: 'l' :: 't' :: ';' :: r => '<' :: decodeEntities r
  | '&' :: 'g' :: 't' :: ';' :: r => '>' :: decodeEntities r
  | '&' :: 'q' :: 'u' :: 'o' :: 't' :: ';' :: r => '"' :: decodeEntities r
  | '&' :: '#' :: 'x' :: '2' :: '7' :: ';' :: r => '\'' :: decodeEntities r
  | c :: r => c :: decodeEntities r
  | [] => []

/-- `t` is the text `d` as it is written inside markup. -/
structure Encodes (d t : String) : Prop where
  markupFree : MarkupFree t
  entity : ∀ r, '&' :: r <:+ t.toList → ∃ e ∈ entityTable, e.2 <+: '&' :: r
  decoded : decodeEntities t.toList = d.toList

theorem decodeEntities_cons {c : Char} (h : c ≠ '&') (r : List Char) :
    decodeEntities (c :: r) = c :: decodeEntities r := by
  rw [decodeEntities.eq_def]
  split <;> simp_all

theorem decodeEntities_entity {c : Char} {e : List Char} (h : (c, e) ∈ entityTable)
    (r : List Char) : decodeEntities (e ++ r) = c :: decodeEntities r := by
  simp only [entityTable, List.mem_cons, List.not_mem_nil, or_false, Prod.mk.injEq] at h
  rcases h with ⟨rfl, rfl⟩ | ⟨rfl, rfl⟩ | ⟨rfl, rfl⟩ | ⟨rfl, rfl⟩ | ⟨rfl, rfl⟩ <;>
    exact decodeEntities.eq_def _

/-- An entity begins with its only ampersand and holds no markup. -/
theorem entity_shape : ∀ e ∈ entityTable,
    ∃ w, e.2 = '&' :: w ∧ '&' ∉ w ∧ e.2.any isMarkup = false := by
  simp only [entityTable, List.forall_mem_cons]
  refine ⟨⟨_, rfl, by decide, by decide⟩, ⟨_, rfl, by decide, by decide⟩,
    ⟨_, rfl, by decide, by decide⟩, ⟨_, rfl, by decide, by decide⟩,
    ⟨_, rfl, by decide, by decide⟩, fun e h => absurd h List.not_mem_nil⟩

/-- A character is written as its entity, or as itself if it has none. -/
theorem encodeChar_cases (c : Char) :
    (c, encodeChar c) ∈ entityTable ∨ encodeChar c = [c] ∧ c ≠ '&' ∧ isMarkup c = false := by
  by_cases h : c ∈ ['&', '<', '>', '"', '\'']
  · simp only [List.mem_cons, List.not_mem_nil, or_false] at h
    rcases h with rfl | rfl | rfl | rfl | rfl <;> exact .inl (by decide)
  · simp only [List.mem_cons, List.not_mem_nil, or_false, not_or] at h
    obtain ⟨hamp, hlt, hgt, hquot, hapos⟩ := h
    refine .inr ⟨encodeChar_of_none ?_, hamp, ?_⟩
    · simp [entity?, hamp, hlt, hgt, hquot, hapos]
    · simp [isMarkup, hlt, hgt, hquot, hapos]

theorem isMarkup_of_mem_encodeChar {c d : Char} (h : d ∈ encodeChar c) : isMarkup d = false := by
  rcases encodeChar_cases c with he | ⟨he, -, hc⟩
  · obtain ⟨w, -, -, hw⟩ := entity_shape _ he
    simpa using List.any_eq_false.1 hw d h
  · rw [he, List.mem_singleton] at h
    rwa [h]

theorem decodeEntities_encodeChar (c : Char) (r : List Char) :
    decodeEntities (encodeChar c ++ r) = c :: decodeEntities r := by
  rcases encodeChar_cases c with he | ⟨he, hc, -⟩
  · exact decodeEntities_entity he r
  · rw [he]
    exact decodeEntities_cons hc r

theorem decodeEntities_encodeEntities (s : List Char) : decodeEntities (encodeEntities s) = s := by
  induction s with
  | nil => rfl
  | cons c s ih =>
    rw [encodeEntities, List.flatMap_cons, decodeEntities_encodeChar]
    exact congrArg (c :: ·) ih

/-- A place of an ampersand behind a word without one is in what follows. -/
theorem suffix_of_suffix_append {w s r : List Char} (hw : '&' ∉ w) (h : '&' :: r <:+ w ++ s) :
    '&' :: r <:+ s := by
  induction w with
  | nil => exact h
  | cons c w ih =>
    rw [List.mem_cons, not_or] at hw
    rcases List.suffix_cons_iff.1 h with heq | h
    · exact absurd (List.cons.inj heq).1 hw.1
    · exact ih hw.2 h

theorem entity_of_suffix (s r : List Char) (h : '&' :: r <:+ encodeEntities s) :
    ∃ e ∈ entityTable, e.2 <+: '&' :: r := by
  induction s with
  | nil => simp at h
  | cons c s ih =>
    rw [encodeEntities, List.flatMap_cons] at h
    rcases encodeChar_cases c with he | ⟨he, hc, -⟩
    · obtain ⟨w, hw, hamp, -⟩ := entity_shape _ he
      change encodeChar c = '&' :: w at hw
      rw [hw, List.cons_append] at h
      rcases List.suffix_cons_iff.1 h with heq | h
      · refine ⟨_, he, s.flatMap encodeChar, ?_⟩
        show encodeChar c ++ _ = _
        rw [hw, heq, List.cons_append]
      · exact ih (suffix_of_suffix_append hamp h)
    · rw [he] at h
      exact ih (suffix_of_suffix_append (by simpa using Ne.symm hc) h)

/-- The encoded text of `d` is `d` as it is written inside markup. -/
theorem encodes_encodeEntities (d : String) : Encodes d (Encoded.ofText d).text := by
  have htext : (Encoded.ofText d).text.toList = encodeEntities d.toList := String.toList_ofList
  refine ⟨fun c hc => ?_, fun r hr => ?_, ?_⟩
  · rw [htext, encodeEntities, List.mem_flatMap] at hc
    obtain ⟨x, -, hx⟩ := hc
    exact isMarkup_of_mem_encodeChar hx
  · rw [htext] at hr
    exact entity_of_suffix d.toList r hr
  · rw [htext, decodeEntities_encodeEntities]

end Sigil.Render
