import Sigil.Text.Pieces

/-!
# Occurrences of a word

Where a word is found in a text, and what is left of the text when every occurrence is taken out.
Parts of the word that a copy of it has kept apart come together then: what is left holds the word
exactly if the text holds a `Broken` one (`isInfix_replaceAll_iff`), and only then does taking out
once more change anything (`replaceAll_eq_self_iff`). Both are about words whose first character
does not come again in them, so that no two occurrences overlap.
-/

namespace Sigil.Text

/-! ## First occurrences -/

/-- A word that occurs is found, and nothing in front of its first place is passed over. -/
theorem exists_cut? (w a b : List Char) :
    ∃ x y, cut? w (a ++ (w ++ b)) = some (x, y) ∧ x <+: a := by
  induction a with
  | nil =>
    cases hs : w ++ b with
    | nil => exact ⟨[], [], by simp [cut?, (List.append_eq_nil_iff.1 hs).1], List.nil_prefix⟩
    | cons c r =>
      have hw : after? w (c :: r) = some b := after?_eq_some_iff.2 hs.symm
      exact ⟨[], b, by rw [List.nil_append, cut?, hw], List.nil_prefix⟩
  | cons c a ih =>
    obtain ⟨x, y, hxy, hx⟩ := ih
    rw [List.cons_append, cut?]
    split
    · rename_i t _
      exact ⟨[], t, rfl, List.nil_prefix⟩
    · exact ⟨c :: x, y, by rw [hxy]; rfl, (List.prefix_cons_inj c).2 hx⟩

theorem not_isInfix_of_cut? {w s : List Char} (h : cut? w s = none) : ¬ w <:+: s := by
  rintro ⟨a, b, rfl⟩
  obtain ⟨x, y, hxy, -⟩ := exists_cut? w a b
  rw [List.append_assoc, hxy] at h
  cases h

theorem isInfix_of_mem_pieces {w : List Char} (hw : w ≠ []) {s m : List Char}
    (h : m ∈ pieces w hw s) : m <:+: s := by
  fun_induction pieces w hw s with
  | case1 s => exact List.mem_singleton.1 h ▸ List.infix_rfl
  | case2 s a b hab ih =>
    rw [eq_of_cut? hab]
    rcases List.mem_cons.1 h with rfl | h
    · exact ⟨[], w ++ b, by rw [List.nil_append, List.append_assoc]⟩
    · exact (ih h).trans (List.suffix_append (a ++ w) b).isInfix

/-- In front of the first place of a word there is no other. -/
theorem not_isInfix_front {w : List Char} (hw : w ≠ []) {s a b : List Char}
    (h : cut? w s = some (a, b)) : ¬ w <:+: a := by
  rintro ⟨u, v, rfl⟩
  have hs : s = u ++ (w ++ (v ++ w ++ b)) := by
    rw [eq_of_cut? h]
    simp only [List.append_assoc]
  obtain ⟨x, y, hxy, hx⟩ := exists_cut? w u (v ++ w ++ b)
  rw [← hs, h] at hxy
  cases hxy
  have hlen := hx.length_le
  have hpos := List.length_pos_iff.2 hw
  simp only [List.length_append] at hlen
  omega

/-- No part between occurrences holds the word. -/
theorem not_isInfix_of_mem_pieces {w : List Char} (hw : w ≠ []) {s m : List Char}
    (h : m ∈ pieces w hw s) : ¬ w <:+: m := by
  fun_induction pieces w hw s with
  | case1 s hs => exact List.mem_singleton.1 h ▸ not_isInfix_of_cut? hs
  | case2 s a b hab ih =>
    rcases List.mem_cons.1 h with rfl | h
    · exact not_isInfix_front hw hab
    · exact ih h

/-! ## Cutting and replacing, place by place -/

section

variable {w s a b : List Char} (hw : w ≠ []) (v : List Char)

theorem pieces_of_none (h : cut? w s = none) : pieces w hw s = [s] := by
  rw [pieces]
  split
  · rfl
  · rename_i h'
    rw [h] at h'
    cases h'

theorem pieces_of_some (h : cut? w s = some (a, b)) : pieces w hw s = a :: pieces w hw b := by
  rw [pieces]
  split
  · rename_i h'
    rw [h] at h'
    cases h'
  · rename_i h'
    rw [h] at h'
    cases h'
    rfl

theorem replaceAll_of_none (h : cut? w s = none) : replaceAll w hw v s = s := by
  rw [replaceAll, pieces_of_none hw h, join]

theorem replaceAll_of_some (h : cut? w s = some (a, b)) :
    replaceAll w hw v s = a ++ v ++ replaceAll w hw v b := by
  rw [replaceAll, pieces_of_some hw h, join_cons (pieces_ne_nil w hw b), replaceAll]

theorem replaceAll_word (s : List Char) :
    replaceAll w hw v (w ++ s) = v ++ replaceAll w hw v s := by
  obtain ⟨x, y, hxy, hx⟩ := exists_cut? w [] s
  obtain rfl := List.prefix_nil.1 hx
  have hs := eq_of_cut? hxy
  rw [List.nil_append, List.nil_append] at hs
  rw [List.nil_append, ← List.append_cancel_left hs] at hxy
  rw [replaceAll_of_some hw v hxy, List.nil_append]

theorem replaceAll_cons {c : Char} (h : ¬ w <+: c :: s) :
    replaceAll w hw v (c :: s) = c :: replaceAll w hw v s := by
  have hafter : after? w (c :: s) = none := by
    rw [Option.eq_none_iff_forall_ne_some]
    exact fun t ht => h ⟨t, (after?_eq_some_iff.1 ht).symm⟩
  have hcut : cut? w (c :: s) = (cut? w s).map fun p => (c :: p.1, p.2) := by
    rw [cut?, hafter]
  cases hs : cut? w s with
  | none =>
    rw [hs, Option.map_none] at hcut
    rw [replaceAll_of_none hw v hcut, replaceAll_of_none hw v hs]
  | some p =>
    rw [hs, Option.map_some] at hcut
    rw [replaceAll_of_some hw v hcut, replaceAll_of_some hw v hs]
    rfl

/-- The first place of a word is behind a text without the word's first character. -/
theorem cut?_append {c : Char} (hs : c ∉ s) (w r : List Char) :
    cut? (c :: w) (s ++ c :: w ++ r) = some (s, r) := by
  induction s with
  | nil =>
    have hw : after? (c :: w) (c :: w ++ r) = some r := after?_eq_some_iff.2 rfl
    rw [List.nil_append, List.cons_append, cut?, ← List.cons_append, hw]
  | cons b s ih =>
    rw [List.mem_cons, not_or] at hs
    rw [List.cons_append, List.cons_append, cut?, after?, if_neg hs.1, ih hs.2, Option.map_some]

theorem cut?_of_notMem {c : Char} (hs : c ∉ s) (w : List Char) : cut? (c :: w) s = none := by
  induction s with
  | nil => rfl
  | cons b s ih =>
    rw [List.mem_cons, not_or] at hs
    rw [cut?, after?, if_neg hs.1, ih hs.2, Option.map_none]

theorem pieces_join {c : Char} {segments : List (List Char)} (hw : c :: w ≠ [])
    (hne : segments ≠ []) (h : ∀ s ∈ segments, c ∉ s) :
    pieces (c :: w) hw (join (c :: w) segments) = segments := by
  induction segments with
  | nil => exact absurd rfl hne
  | cons s segments ih =>
    rw [List.forall_mem_cons] at h
    by_cases hs : segments = []
    · rw [hs, join, pieces_of_none hw (cut?_of_notMem h.1 w)]
    · rw [join_cons hs, pieces_of_some hw (cut?_append h.1 w _), ih hs h.2]

/-- A text that does not hold the word is left as it is. -/
theorem replaceAll_of_not_isInfix (h : ¬ w <:+: s) : replaceAll w hw v s = s := by
  cases hs : cut? w s with
  | none => exact replaceAll_of_none hw v hs
  | some p => exact absurd ⟨p.1, p.2, (eq_of_cut? hs).symm⟩ h

end

/-! ## Words that are taken out -/

/-- `s` is `t` with copies of the word put in. -/
inductive Filled (w : List Char) : List Char → List Char → Prop
  | nil : Filled w [] []
  | char (c : Char) {t s : List Char} : Filled w t s → Filled w (c :: t) (c :: s)
  | copy {t s : List Char} : Filled w t s → Filled w t (w ++ s)

/-- The text holds a first part of the word, a copy of the word behind it, and then the rest of the
word, perhaps with more copies in it. -/
def Broken (w s : List Char) : Prop :=
  ∃ u v y, u ≠ [] ∧ v ≠ [] ∧ u ++ v = w ∧ Filled w v y ∧ u ++ w ++ y <:+: s

theorem Broken.mono {w s s' : List Char} (h : Broken w s) (hs : s <:+: s') : Broken w s' := by
  obtain ⟨u, v, y, hu, hv, huv, hy, hin⟩ := h
  exact ⟨u, v, y, hu, hv, huv, hy, hin.trans hs⟩

theorem Filled.chars {w t s : List Char} (a : List Char) (h : Filled w t s) :
    Filled w (a ++ t) (a ++ s) := by
  induction a with
  | nil => exact h
  | cons c a ih => exact .char c ih

theorem Filled.length_le {w t s : List Char} (h : Filled w t s) : t.length ≤ s.length := by
  induction h with
  | nil => exact Nat.le_refl _
  | char c _ ih => exact Nat.succ_le_succ ih
  | copy _ ih =>
    rw [List.length_append]
    omega

theorem Filled.split {w v t s : List Char} (h : Filled w (v ++ t) s) :
    ∃ y z, s = y ++ z ∧ Filled w v y ∧ Filled w t z := by
  generalize hvt : v ++ t = x at h
  induction h generalizing v with
  | nil =>
    obtain ⟨rfl, rfl⟩ := List.append_eq_nil_iff.1 hvt
    exact ⟨[], [], rfl, .nil, .nil⟩
  | @char c x s h ih =>
    cases v with
    | nil =>
      rw [List.nil_append] at hvt
      exact ⟨[], c :: s, rfl, .nil, hvt ▸ .char c h⟩
    | cons d v =>
      rw [List.cons_append, List.cons.injEq] at hvt
      obtain ⟨rfl, hvt⟩ := hvt
      obtain ⟨y, z, rfl, hy, hz⟩ := ih hvt
      exact ⟨d :: y, z, rfl, .char d hy, hz⟩
  | copy h ih =>
    obtain ⟨y, z, rfl, hy, hz⟩ := ih hvt
    exact ⟨w ++ y, z, (List.append_assoc ..).symm, .copy hy, hz⟩

section

variable {w : List Char} (hw : w ≠ [])

theorem filled_replaceAll (s : List Char) : Filled w (replaceAll w hw [] s) s := by
  have refl (s : List Char) : Filled w s s := by
    have := Filled.nil (w := w).chars s
    rwa [List.append_nil] at this
  induction s using pieces.induct w hw with
  | case1 s hs =>
    rw [replaceAll_of_none hw [] hs]
    exact refl s
  | case2 s a b hs ih =>
    rw [replaceAll_of_some hw [] hs, List.append_nil]
    conv => rhs; rw [eq_of_cut? hs, List.append_assoc]
    exact ih.copy.chars a

/-- Taking the word out changes the texts that hold it. -/
theorem replaceAll_eq_self_iff (s : List Char) : replaceAll w hw [] s = s ↔ ¬ w <:+: s := by
  refine ⟨fun h hin => ?_, replaceAll_of_not_isInfix hw []⟩
  cases hs : cut? w s with
  | none => exact not_isInfix_of_cut? hs hin
  | some p =>
    have hlen := length_of_cut? hs
    have hpos := List.length_pos_iff.2 hw
    have hle := (filled_replaceAll hw p.2).length_le
    rw [replaceAll_of_some hw [] hs] at h
    have hsame := congrArg List.length h
    simp only [List.length_append, List.length_nil] at hsame
    omega

/-- If what is left holds the word, its parts were kept apart. -/
theorem broken_of_isInfix_replaceAll {s : List Char} (h : w <:+: replaceAll w hw [] s) :
    Broken w s := by
  induction s using pieces.induct w hw with
  | case1 s hs =>
    rw [replaceAll_of_none hw [] hs] at h
    exact absurd h (not_isInfix_of_cut? hs)
  | case2 s a b hs ih =>
    have htext := eq_of_cut? hs
    have hbehind (h : w <:+: replaceAll w hw [] b) : Broken w s := by
      refine (ih h).mono ?_
      rw [htext]
      exact (List.suffix_append (a ++ w) b).isInfix
    rw [replaceAll_of_some hw [] hs, List.append_nil, List.infix_append_iff] at h
    rcases h with h | h | ⟨u, v, huv, hu, hv⟩
    · exact absurd h (not_isInfix_front hw hs)
    · exact hbehind h
    · by_cases hu0 : u = []
      · rw [hu0, List.nil_append] at huv
        exact hbehind (huv ▸ hv.isInfix)
      by_cases hv0 : v = []
      · rw [hv0, List.append_nil] at huv
        exact absurd (huv ▸ hu.isInfix) (not_isInfix_front hw hs)
      -- The word reaches over the place of the copy that stood behind `a`.
      obtain ⟨g, hg⟩ := hu
      obtain ⟨t, ht⟩ := hv
      obtain ⟨y, z, hyz, hy, -⟩ := (ht ▸ filled_replaceAll hw b).split
      refine ⟨u, v, y, hu0, hv0, huv.symm, hy, g, z, ?_⟩
      rw [htext, ← hg, hyz]
      simp only [List.append_assoc]

end

/-! ## Words that do not overlap -/

section

variable {a : Char} {w : List Char}

theorem prefix_of_prefix_append_cons (ha : a ∉ w) {p q : List Char} (h : w <+: p ++ a :: q) :
    w <+: p := by
  have hp : p ++ [a] <+: p ++ a :: q := ⟨q, by rw [List.append_assoc]; rfl⟩
  rcases List.prefix_or_prefix_of_prefix h hp with hwp | hpw
  · rcases List.prefix_concat_iff.1 hwp with rfl | hwp
    · exact absurd List.mem_concat_self ha
    · exact hwp
  · exact absurd (hpw.subset List.mem_concat_self) ha

/-- No occurrence reaches over the place in front of the word's first character. -/
theorem replaceAll_append_cons (hw : a :: w ≠ []) (ha : a ∉ w) (v p q : List Char) :
    replaceAll (a :: w) hw v (p ++ a :: q) =
      replaceAll (a :: w) hw v p ++ replaceAll (a :: w) hw v (a :: q) := by
  generalize hn : p.length = n
  induction n using Nat.strongRecOn generalizing p with
  | ind n ih =>
    cases p with
    | nil =>
      rw [replaceAll_of_none hw v (s := []) rfl]
      rfl
    | cons c p =>
      by_cases hword : a :: w <+: c :: p
      · obtain ⟨r, hr⟩ := hword
        have hlen := congrArg List.length hr
        simp only [List.length_append, List.length_cons] at hlen hn
        rw [← hr, List.append_assoc, replaceAll_word, replaceAll_word, ih r.length (by omega) r rfl,
          List.append_assoc]
      · have hover : ¬ a :: w <+: c :: (p ++ a :: q) := by
          intro h
          rw [List.cons_prefix_cons] at h hword
          exact hword ⟨h.1, prefix_of_prefix_append_cons ha h.2⟩
        rw [List.cons_append, replaceAll_cons hw v hover, replaceAll_cons hw v hword,
          ih p.length (by rw [← hn, List.length_cons]; omega) p rfl, List.cons_append]

theorem replaceAll_filled (hw : a :: w ≠ []) {v y : List Char} (hy : Filled (a :: w) v y)
    (hv : a ∉ v) (b : List Char) :
    replaceAll (a :: w) hw [] (y ++ b) = v ++ replaceAll (a :: w) hw [] b := by
  induction hy with
  | nil => rfl
  | @char c v y _ ih =>
    rw [List.mem_cons, not_or] at hv
    have hword : ¬ a :: w <+: c :: (y ++ b) := fun h => hv.1 (List.cons_prefix_cons.1 h).1
    rw [List.cons_append, replaceAll_cons hw [] hword, ih hv.2, List.cons_append]
  | copy _ ih => rw [List.append_assoc, replaceAll_word, ih hv, List.nil_append]

/-- What is left when the word is taken out holds the word exactly if the text holds a broken
one. -/
theorem isInfix_replaceAll_iff (hw : a :: w ≠ []) (ha : a ∉ w) (s : List Char) :
    a :: w <:+: replaceAll (a :: w) hw [] s ↔ Broken (a :: w) s := by
  refine ⟨broken_of_isInfix_replaceAll hw, ?_⟩
  rintro ⟨u, v, y, hu, hv, huv, hy, g, z, rfl⟩
  obtain ⟨c, u, rfl⟩ := List.exists_cons_of_ne_nil hu
  rw [List.cons_append, List.cons.injEq] at huv
  obtain ⟨rfl, huv⟩ := huv
  have hfront : ¬ c :: w <:+: c :: u := by
    intro h
    have hlen := h.length_le
    have hpos := List.length_pos_iff.2 hv
    simp only [List.length_cons, ← huv, List.length_append] at hlen
    omega
  have htext : g ++ (c :: u ++ c :: w ++ y) ++ z = g ++ c :: (u ++ c :: (w ++ (y ++ z))) := by
    simp only [List.append_assoc, List.cons_append]
  have hleft : replaceAll (c :: w) hw [] (c :: (u ++ c :: (w ++ (y ++ z)))) =
      c :: w ++ replaceAll (c :: w) hw [] z := by
    have hv : c ∉ v := fun h => ha (huv ▸ List.mem_append_right u h)
    calc replaceAll (c :: w) hw [] (c :: u ++ c :: (w ++ (y ++ z)))
        = replaceAll (c :: w) hw [] (c :: u) ++ replaceAll (c :: w) hw [] (c :: w ++ (y ++ z)) :=
          replaceAll_append_cons hw ha [] (c :: u) (w ++ (y ++ z))
      _ = c :: u ++ (v ++ replaceAll (c :: w) hw [] z) := by
          rw [replaceAll_of_not_isInfix hw [] hfront, replaceAll_word, List.nil_append,
            replaceAll_filled hw hy hv]
      _ = c :: w ++ replaceAll (c :: w) hw [] z := by
          rw [← List.append_assoc, List.cons_append, huv]
  rw [htext, replaceAll_append_cons hw ha, hleft]
  exact ⟨_, _, List.append_assoc ..⟩

end

end Sigil.Text
