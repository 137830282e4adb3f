import Sigil.Proofs.ModelType.Printed

/-!
# Reading what is printed

What the reader makes of a printed type, one lemma for each constructor: it reads the parts where
they were printed. The lists are in `map_read_members`: members that are not blank, have no comma of
their own outside brackets and lead no deeper in front of another are read one by one.
-/

namespace Sigil.ModelType

open Text

/-! ## Constructors -/

theorem read_of_form {s : List Char} {f : Form} (ht : trim s = s) (hf : form s = f) :
    read s = f.type s := by
  rw [read_eq, ht, hf]

theorem trim_enclosed {a b : Char} (ha : isBlank a = false) (hb : isBlank b = false)
    (x : List Char) : trim (a :: (x ++ [b])) = a :: (x ++ [b]) :=
  trim_eq_self (by simpa using ha) (by simpa [getLast?_enclosed] using hb)

theorem read_chars_array {e : ModelType} {l : String} (he : Uncut ';' (chars e))
    (hn : nest (chars e) = 0) (hl : Uncut ';' l.toList) (ht : trim l.toList = l.toList) :
    read (chars (.array e l)) = .array (read (chars e)) l := by
  have hlen : Uncut ';' (' ' :: l.toList) := by
    simpa [Uncut, nestingAngled, nesting] using hl
  have hparts := (Cuts.cons he hn (.last hlen)).parts_eq
  rw [chars_array, read_of_form (trim_enclosed rfl rfl _) (form_bracket _)]
  rw [bracketForm, hparts]
  rw [Form.type, show trim (' ' :: l.toList) = trim l.toList from trim_append (b := [' '])
    (by simp [IsBlankText, isBlank]) _, ht, String.ofList_toList]

theorem read_chars_slice {e : ModelType} (h : (parts ';' (chars e)).length ≠ 2) :
    read (chars (.slice e)) = .slice (read (chars e)) := by
  have hf : bracketForm (chars e) = .slice (chars e) := by
    unfold bracketForm
    split
    · rename_i hp
      exact absurd (by rw [hp]; rfl) h
    · rfl
  rw [chars_slice, read_of_form (trim_enclosed rfl rfl _) (form_bracket _), hf, Form.type]

theorem read_chars_tuple (ts : List ModelType) :
    read (chars (.tuple ts)) = .tuple ((members (innerChars ts)).map read) := by
  rw [chars_tuple, read_of_form (trim_enclosed rfl rfl _) (form_paren _), Form.type]

theorem read_chars_named_cons {p : String} {t : ModelType} {ts : List ModelType}
    (hp : ∀ r, openAngle? 0 (p.toList ++ '<' :: r) = some (p.toList, r))
    (hhead : ∀ c ∈ p.toList.head?, isBlank c = false) (hamp : p.toList.head? ≠ some '&')
    (hname : isAnonymousPath p.toList = false) :
    read (chars (.named p (t :: ts))) = .named p ((members (listChars (t :: ts))).map read) := by
  have htrim : trim (chars (.named p (t :: ts))) = chars (.named p (t :: ts)) := by
    rw [chars_named_cons]
    refine trim_eq_self ?_ ?_
    · cases hc : p.toList with
      | nil =>
        rintro c ⟨⟩
        rfl
      | cons a p =>
        rw [hc] at hhead
        exact hhead
    · rw [List.getLast?_append_of_ne_nil _ (by simp), getLast?_enclosed]
      rintro c ⟨⟩
      rfl
  have hform :
      form (chars (.named p (t :: ts))) = .path p.toList (members (listChars (t :: ts))) := by
    rw [chars_named_cons]
    exact form_generic hp hamp _
  rw [read_of_form htrim hform, Form.type, if_neg (by simp [hname]), String.ofList_toList]

theorem read_chars_mutable {t : ModelType} (h : ¬ IsBlankText (chars t)) :
    read (chars (.reference true t)) = .reference true (read (chars t)) := by
  have htrim :
      trim ('&' :: (mutableWord ++ chars t)) = '&' :: (mutableWord ++ trimEnd (chars t)) := by
    rw [trim_cons (by decide), trimEnd_append (trimEnd_ne_nil h)]
  have hform : form ('&' :: (mutableWord ++ trimEnd (chars t))) =
      .reference true (trimEnd (chars t)) := form_amp _
  rw [chars_mutable, read_eq, htrim, hform, Form.type, ← read_trim, trim_trimEnd, read_trim]

theorem read_chars_shared {t : ModelType} (h : after? mutableWord (trim (chars t)) = none) :
    read (chars (.reference false t)) = .reference false (read (chars t)) := by
  have hform : form ('&' :: trimEnd (chars t)) = .reference false (trim (chars t)) := by
    rw [form_amp, referenceForm, trimStart_trimEnd]
    simp only [show after? ['m', 'u', 't', ' '] (trim (chars t)) = none from h]
  rw [chars_shared, read_eq, trim_cons (by decide), hform, Form.type, read_trim]

/-! ## Lists -/

/-- A member of a list that is read as one member. -/
def Separate (t : ModelType) : Prop := ¬ IsBlankText (chars t) ∧ Uncut ',' (chars t)

theorem members_uncut {s : List Char} (h : Uncut ',' s) (hb : ¬ IsBlankText s) :
    members s = [s] := by
  have hne : (trim s).isEmpty = false := by
    rw [List.isEmpty_eq_false_iff, ne_eq, trim_eq_nil_iff]
    exact hb
  rw [members, (Cuts.last h).parts_eq]
  simp [hne]

theorem members_of_isBlankText {b : List Char} (hb : IsBlankText b) : members b = [] := by
  have huncut : Uncut ',' b := by
    rw [Uncut, depths_of_isBlankText (by decide) hb]
    exact List.not_mem_nil
  rw [members, (Cuts.last huncut).parts_eq]
  simp [(trim_eq_nil_iff b).2 hb]

theorem members_cut {s : List Char} (h : Uncut ',' s) (hn : nest s = 0) (r : List Char) :
    members (s ++ ',' :: r) = members s ++ members r := by
  rw [members, (Cuts.cons h hn (cuts_parts r)).parts_eq, members, members,
    (Cuts.last h).parts_eq, ← List.filter_append, List.singleton_append]

theorem Separate.members_eq {t : ModelType} (h : Separate t) {b : List Char} (hb : IsBlankText b) :
    members (b ++ chars t) = [b ++ chars t] :=
  members_uncut ((uncut_append_blank hb).2 h.2) fun hblank =>
    h.1 fun c hc => hblank c (List.mem_append_right b hc)

theorem Separate.members_cons {t : ModelType} (h : Separate t) (hn : nest (chars t) = 0)
    {b : List Char} (hb : IsBlankText b) (r : List Char) :
    members (b ++ (chars t ++ ',' :: r)) = (b ++ chars t) :: members r := by
  have hcut := members_cut ((uncut_append_blank hb).2 h.2)
    (by rw [nest_append, nest_of_isIdle (isIdle_of_isBlankText hb), hn]; rfl) r
  rw [← List.append_assoc, hcut, h.members_eq hb, List.singleton_append]

/-- Separate members that lead no deeper in front of another are read one by one. -/
theorem map_read_members {ts : List ModelType} (hsep : ∀ t ∈ ts, Separate t)
    (hnest : ∀ t ∈ ts.dropLast, nest (chars t) = 0) {b : List Char} (hb : IsBlankText b) :
    (members (b ++ listChars ts)).map read = ts.map fun t => read (chars t) := by
  induction ts generalizing b with
  | nil =>
    rw [listChars, List.append_nil, members_of_isBlankText hb]
    rfl
  | cons t ts ih =>
    rw [List.forall_mem_cons] at hsep
    cases ts with
    | nil =>
      rw [listChars, charsRest, List.append_nil, hsep.1.members_eq hb]
      simp [read_append hb]
    | cons u us =>
      rw [List.dropLast_cons_of_ne_nil (by simp), List.forall_mem_cons] at hnest
      rw [listChars, charsRest_cons, hsep.1.members_cons hnest.1 hb, List.map_cons, read_append hb,
        List.map_cons, ← ih hsep.2 hnest.2 (b := [' ']) (by simp [IsBlankText, isBlank])]
      rfl

/-- The members of a tuple, an only one with the comma behind it. -/
theorem map_read_inner {ts : List ModelType} (hsep : ∀ t ∈ ts, Separate t)
    (hnest : ∀ t ∈ ts.dropLast, nest (chars t) = 0) (hone : ∀ t, ts = [t] → nest (chars t) = 0) :
    (members (innerChars ts)).map read = ts.map fun t => read (chars t) := by
  have hnil : IsBlankText [] := by simp [IsBlankText]
  unfold innerChars
  split
  · rename_i t
    have := (hsep t (by simp)).members_cons (hone t rfl) hnil []
    rw [List.nil_append, List.nil_append, members_of_isBlankText hnil] at this
    rw [this, List.map_cons, List.map_nil, List.map_singleton]
  · exact map_read_members hsep hnest hnil

end Sigil.ModelType
