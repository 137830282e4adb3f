import Mathlib.Data.List.Basic
import Sigil.Text.Blank

/-!
# Trimmed texts

A text is what trimming leaves of it, between blanks, and what it leaves has no blank at either end
(`trim_eq_iff`). The same holds for the characters of any class that are taken off one end
(`dropEndWhile_eq_iff`).
-/

namespace Sigil.Text

def IsBlankText (s : List Char) : Prop := ∀ c ∈ s, isBlank c = true

namespace IsBlankText

variable {b s : List Char} (hb : IsBlankText b)

include hb

theorem eq_nil_of_head? (h : ∀ c ∈ (b ++ s).head?, isBlank c = false) : b = [] := by
  cases b with
  | nil => rfl
  | cons c r =>
    have := h c rfl
    rw [hb c List.mem_cons_self] at this
    cases this

theorem eq_nil_of_getLast? (h : ∀ c ∈ (s ++ b).getLast?, isBlank c = false) : b = [] := by
  cases hc : b.getLast? with
  | none => exact List.getLast?_eq_none_iff.1 hc
  | some c =>
    have := h c (by rw [List.getLast?_append, hc]; rfl)
    rw [hb c (List.mem_of_getLast? hc)] at this
    cases this

end IsBlankText

theorem trimStart_append {b : List Char} (hb : IsBlankText b) (s : List Char) :
    trimStart (b ++ s) = trimStart s := List.dropWhile_append_of_pos hb

theorem trimStart_eq_self {s : List Char} (h : ∀ c ∈ s.head?, isBlank c = false) :
    trimStart s = s := by
  cases s with
  | nil => rfl
  | cons c s => exact List.dropWhile_cons_of_neg (by simp [h c rfl])

theorem exists_trimStart (s : List Char) : ∃ b, IsBlankText b ∧ s = b ++ trimStart s :=
  ⟨s.takeWhile isBlank, fun c hc => List.all_eq_true.1 List.all_takeWhile c hc,
    List.takeWhile_append_dropWhile.symm⟩

theorem trimEnd_eq (s : List Char) : trimEnd s = (trimStart s.reverse).reverse := rfl

theorem exists_trimEnd (s : List Char) : ∃ b, IsBlankText b ∧ s = trimEnd s ++ b := by
  obtain ⟨b, hb, hs⟩ := exists_trimStart s.reverse
  refine ⟨b.reverse, fun c hc => hb c (List.mem_reverse.1 hc), ?_⟩
  rw [trimEnd_eq, ← List.reverse_append, ← hs, List.reverse_reverse]

/-- A text is what is left of it, between blanks. -/
theorem exists_trim (s : List Char) :
    ∃ a b, IsBlankText a ∧ IsBlankText b ∧ s = a ++ (trim s ++ b) := by
  obtain ⟨a, ha, hs⟩ := exists_trimStart s
  obtain ⟨b, hb, ht⟩ := exists_trimEnd (trimStart s)
  exact ⟨a, b, ha, hb, by rw [trim, ← ht]; exact hs⟩

theorem head?_trimStart (s : List Char) : ∀ c ∈ (trimStart s).head?, isBlank c = false := by
  intro c hc
  obtain ⟨r, hr⟩ := List.head?_eq_some_iff.1 (Option.mem_def.1 hc)
  exact head_trimStart hr

theorem getLast?_trim (s : List Char) : ∀ c ∈ (trim s).getLast?, isBlank c = false := by
  intro c hc
  rw [trim, trimEnd_eq, List.getLast?_reverse] at hc
  exact head?_trimStart _ c hc

theorem head?_trim (s : List Char) : ∀ c ∈ (trim s).head?, isBlank c = false := by
  intro c hc
  obtain ⟨b, -, ht⟩ := exists_trimEnd (trimStart s)
  refine head?_trimStart s c ?_
  rw [ht, List.head?_append, show (trimEnd (trimStart s)).head? = some c from hc]
  rfl

theorem trim_eq_self {s : List Char} (hhead : ∀ c ∈ s.head?, isBlank c = false)
    (hlast : ∀ c ∈ s.getLast?, isBlank c = false) : trim s = s := by
  rw [trim, trimStart_eq_self hhead, trimEnd_eq, trimStart_eq_self, List.reverse_reverse]
  rwa [List.head?_reverse]

theorem trim_trim (s : List Char) : trim (trim s) = trim s :=
  trim_eq_self (head?_trim s) (getLast?_trim s)

theorem trim_append {b : List Char} (hb : IsBlankText b) (s : List Char) :
    trim (b ++ s) = trim s := by
  rw [trim, trimStart_append hb, trim]

theorem trim_eq_nil_iff (s : List Char) : trim s = [] ↔ IsBlankText s := by
  constructor
  · intro h
    obtain ⟨a, b, ha, hb, hs⟩ := exists_trim s
    rw [h, List.nil_append] at hs
    rw [hs]
    exact List.forall_mem_append.2 ⟨ha, hb⟩
  · intro h
    have := trim_append h []
    rwa [List.append_nil] at this

theorem trimEnd_ne_nil {s : List Char} (h : ¬ IsBlankText s) : trimEnd s ≠ [] := by
  intro hnil
  obtain ⟨b, hb, hs⟩ := exists_trimEnd s
  rw [hnil, List.nil_append] at hs
  exact h (hs ▸ hb)

theorem trimEnd_append {u : List Char} (hu : trimEnd u ≠ []) (x : List Char) :
    trimEnd (x ++ u) = x ++ trimEnd u := by
  have hne : (List.dropWhile isBlank u.reverse).isEmpty = false := by
    rw [List.isEmpty_eq_false_iff]
    exact fun h => hu (by rw [trimEnd_eq, trimStart, h]; rfl)
  rw [trimEnd_eq, trimEnd_eq, trimStart, trimStart, List.reverse_append, List.dropWhile_append, hne]
  simp

theorem trimEnd_append_of_isBlankText {b : List Char} (hb : IsBlankText b) (s : List Char) :
    trimEnd (s ++ b) = trimEnd s := by
  rw [trimEnd_eq, List.reverse_append,
    trimStart_append fun c hc => hb c (List.mem_reverse.1 hc), ← trimEnd_eq]

theorem trimStart_trimEnd (s : List Char) : trimStart (trimEnd s) = trim s := by
  obtain ⟨a, ha, hs⟩ := exists_trimStart s
  by_cases hnil : trim s = []
  · have hblank := (trim_eq_nil_iff s).1 hnil
    rw [hnil, show trimEnd s = [] from trimEnd_append_of_isBlankText hblank []]
    rfl
  · conv => enter [1]; rw [hs, trimEnd_append hnil, trimStart_append ha]
    exact trimStart_eq_self (head?_trim s)

theorem trim_trimEnd (s : List Char) : trim (trimEnd s) = trim s := by
  have := trim_trim s
  rw [trim, trimStart_eq_self (head?_trim s)] at this
  rw [trim, trimStart_trimEnd, this]

theorem trim_cons {c : Char} (hc : isBlank c = false) (s : List Char) :
    trim (c :: s) = c :: trimEnd s := by
  rw [trim, trimStart_eq_self (by rintro d ⟨⟩; exact hc)]
  by_cases hnil : trimEnd s = []
  · obtain ⟨b, hb, hs⟩ := exists_trimEnd s
    rw [hnil, List.nil_append] at hs
    rw [hnil, hs]
    refine (trimEnd_append_of_isBlankText hb [c]).trans ?_
    rw [trimEnd_eq, trimStart_eq_self (by rintro d ⟨⟩; exact hc)]
    rfl
  · exact trimEnd_append hnil [c]

theorem trim_append_right {b : List Char} (hb : IsBlankText b) (s : List Char) :
    trim (s ++ b) = trim s := by
  rw [← trim_trimEnd, trimEnd_append_of_isBlankText hb, trim_trimEnd]

/-- No blank at either end. -/
def IsTrimmed (s : List Char) : Prop :=
  (∀ c ∈ s.head?, isBlank c = false) ∧ ∀ c ∈ s.getLast?, isBlank c = false

theorem trim_eq_iff {s t : List Char} :
    trim s = t ↔ IsTrimmed t ∧ ∃ a b, IsBlankText a ∧ IsBlankText b ∧ s = a ++ t ++ b := by
  constructor
  · rintro rfl
    obtain ⟨a, b, ha, hb, hs⟩ := exists_trim s
    exact ⟨⟨head?_trim s, getLast?_trim s⟩, a, b, ha, hb, hs.trans (List.append_assoc ..).symm⟩
  · rintro ⟨ht, a, b, ha, hb, rfl⟩
    rw [trim_append_right hb, trim_append ha, trim_eq_self ht.1 ht.2]

theorem dropEndWhile_eq_iff {p : Char → Bool} {s t : List Char} :
    dropEndWhile p s = t ↔
      (∀ c ∈ t.getLast?, p c = false) ∧ ∃ e, (∀ c ∈ e, p c = true) ∧ s = t ++ e := by
  constructor
  · rintro rfl
    refine ⟨fun c hc => ?_, (s.reverse.takeWhile p).reverse, fun c hc => ?_, ?_⟩
    · rw [dropEndWhile, List.getLast?_reverse] at hc
      simpa [Option.mem_def.1 hc] using List.head?_dropWhile_not p s.reverse
    · exact List.all_eq_true.1 List.all_takeWhile c (List.mem_reverse.1 hc)
    · rw [dropEndWhile, ← List.reverse_append, List.takeWhile_append_dropWhile,
        List.reverse_reverse]
  · rintro ⟨ht, e, he, rfl⟩
    rw [dropEndWhile, List.reverse_append,
      List.dropWhile_append_of_pos fun c hc => he c (List.mem_reverse.1 hc)]
    cases hr : t.reverse with
    | nil => simpa using hr.symm
    | cons c r =>
      have hc : t.getLast? = some c := by rw [← List.head?_reverse, hr, List.head?_cons]
      rw [List.dropWhile_cons_of_neg (by simp [ht c hc]), ← hr, List.reverse_reverse]

end Sigil.Text
