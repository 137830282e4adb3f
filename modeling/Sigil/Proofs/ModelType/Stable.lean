import Mathlib.Algebra.Order.BigOperators.Group.List
import Mathlib.Algebra.Order.Group.Nat
import Sigil.Proofs.ModelType.ReadBack

/-!
# Types that read back

A printed type is read back to itself exactly when it is `Legible` (`parse_text_parse_iff`). What may
go wrong is that a path looks like something else, that a member of a list is blank or is cut at a
comma of its own, or that the comma behind an only member does not stand outside all brackets. The
reader takes every `>` for a closing bracket, the one of an arrow too, so a function type among the
members of a tuple leads out of a bracket that was never opened and the commas behind it cut nothing.
-/

namespace Sigil.ModelType

open Text

/-! ## Legible types -/

mutual

/-- Every part of the type is read back where it is printed. -/
def Legible : ModelType → Prop
  | dynamic => True
  | named path [] => form (trim path.toList) = .path path.toList []
  | named _ (t :: ts) => (Legible t ∧ Separate t) ∧ LegibleAll ts
  | array e _ => Legible e
  | slice e => Legible e
  | tuple ts => LegibleAll ts ∧ ∀ t, ts = [t] → nest (chars t) = 0
  | reference mutable t => Legible t ∧ (mutable = true → ¬ IsBlankText (chars t))
  | anonymous _ => True

def LegibleAll : List ModelType → Prop
  | [] => True
  | t :: ts => (Legible t ∧ Separate t) ∧ LegibleAll ts

end

theorem legible_named_cons {p : String} {t : ModelType} {ts : List ModelType} :
    Legible (.named p (t :: ts)) ↔ LegibleAll (t :: ts) := by
  rw [Legible, LegibleAll]

theorem legibleAll_iff {ts : List ModelType} :
    LegibleAll ts ↔ ∀ t ∈ ts, Legible t ∧ Separate t := by
  induction ts with
  | nil => simp [LegibleAll]
  | cons t ts ih => rw [LegibleAll, ih, List.forall_mem_cons]

/-! ## Members that read back -/

theorem not_uncut {a : List Char} (h : ∀ c ∈ a, isIdle c = true) (r : List Char) :
    ¬ Uncut ',' (a ++ ',' :: r) :=
  fun hcut => hcut (by simp [nest_of_isIdle h])

theorem isBlankText_of_isIdle {s : List Char} (h : Uncut ',' s) (hi : ∀ c ∈ s, isIdle c = true) :
    IsBlankText s := by
  intro c hc
  have hcomma : c ≠ ',' := by
    rintro rfl
    obtain ⟨a, r, rfl⟩ := List.append_of_mem hc
    exact not_uncut (List.forall_mem_append.1 hi).1 r h
  have := hi c hc
  rw [isIdle, Bool.or_eq_true] at this
  exact this.resolve_right (by simpa using hcomma)

theorem head?_trim_ne_comma {n : List Char} (h : Uncut ',' n) : (trim n).head? ≠ some ',' := by
  intro hhead
  obtain ⟨z, hz⟩ := List.head?_eq_some_iff.1 hhead
  obtain ⟨x, y, hx, -, hn⟩ := exists_trim n
  rw [hz] at hn
  exact not_uncut (isIdle_of_isBlankText hx) (z ++ y) (hn ▸ h)

theorem getLast?_eq_comma {a r : List Char} (hr : ∀ c ∈ r, isIdle c = true)
    (h : ∀ c ∈ (a ++ ',' :: r).getLast?, isBlank c = false) :
    (a ++ ',' :: r).getLast? = some ',' := by
  obtain ⟨c, hc⟩ : ∃ c, (a ++ ',' :: r).getLast? = some c :=
    Option.isSome_iff_exists.1 (by simp)
  have hidle : isIdle c = true := by
    rw [List.getLast?_append_of_ne_nil _ (by simp)] at hc
    rcases List.mem_cons.1 (List.mem_of_getLast? hc) with rfl | hmem
    · rfl
    · exact hr c hmem
  rw [isIdle, h c hc, Bool.false_or, beq_iff_eq] at hidle
  rw [hc, hidle]

/-- A printed type is cut at no comma where the first member of a list is read to it and loses
nothing in that. -/
theorem uncut_of_first {t : ModelType} {b r n : List Char} {ns : List (List Char)}
    (hb : IsBlankText b) (hm : members (b ++ (chars t ++ r)) = n :: ns) (huncut : Uncut ',' n)
    (ht : read n = t) (htight : Tight n) : Uncut ',' (chars t) := by
  obtain ⟨hhead, hlast⟩ := htight.ends
  have hcount := count_comma_read (s := n)
  rw [Tight, ht] at htight
  rw [ht] at hhead hlast hcount
  intro hcut
  obtain ⟨a, q, ha, hauncut, hnest⟩ := exists_cut ',' 0 (chars t) hcut
  rw [Int.zero_add] at hnest
  rw [ha] at hm htight hhead hlast hcount
  by_cases hblank : IsBlankText a
  · -- the printed type begins with a comma, and so would the member
    cases a with
    | nil => exact head?_trim_ne_comma huncut hhead.symm
    | cons c a =>
      have := head?_trim n c hhead.symm
      rw [hblank c (by simp)] at this
      cases this
  · -- what is printed behind the comma weighs nothing, so the member ends with a comma too many
    have hna : n = b ++ a := by
      have hba : Uncut ',' (b ++ a) := (uncut_append_blank hb).2 hauncut
      have hcutm := members_cut hba (by
        rw [nest_append, nest_of_isIdle (isIdle_of_isBlankText hb), hnest]
        rfl) (q ++ r)
      rw [members_uncut hba fun h => hblank fun c hc => h c (List.mem_append_right b hc)] at hcutm
      rw [show b ++ (a ++ ',' :: q ++ r) = b ++ a ++ ',' :: (q ++ r) by simp, hcutm] at hm
      exact (List.cons.inj hm).1.symm
    rw [hna] at htight hcount
    simp only [weight_append, weight_cons, weight_of_isBlankText hb] at htight
    have hq : ∀ c ∈ q, isIdle c = true := weight_eq_zero_iff.1 (by omega)
    have hcomma := getLast?_eq_comma (a := a) hq (by
      rw [hlast]
      exact getLast?_trim n)
    rw [hcomma, hna] at hlast
    have := hcount hlast.symm
    rw [List.count_append, List.count_append, List.count_cons_self,
      count_comma_of_isBlankText hb] at this
    omega

/-- The first member that is read to a type, where that type is printed with what the member has. -/
theorem separate_of_first {t : ModelType} {b r n : List Char} {ns : List (List Char)}
    (hb : IsBlankText b) (hm : members (b ++ (chars t ++ r)) = n :: ns) (ht : read n = t)
    (htight : Tight n) : Separate t := by
  have hmem : n ∈ members (b ++ (chars t ++ r)) := hm ▸ List.mem_cons_self
  obtain ⟨hpart, hnonblank⟩ := List.mem_filter.1 hmem
  have huncut : Uncut ',' n := (cuts_parts _).uncut n hpart
  refine ⟨fun hblank => ?_, uncut_of_first hb hm huncut ht htight⟩
  rw [Tight, ht, weight_of_isBlankText hblank, eq_comm, weight_eq_zero_iff] at htight
  have := (trim_eq_nil_iff n).2 (isBlankText_of_isIdle huncut htight)
  simp [this] at hnonblank

/-- Members that are read to the types that were printed stand where these were printed. -/
theorem separate_of_members {ts : List ModelType} {b : List Char} (hb : IsBlankText b)
    (hnest : ∀ t ∈ ts.dropLast, nest (chars t) = 0)
    (h : (members (b ++ listChars ts)).map read = ts)
    (htight : ∀ n ∈ members (b ++ listChars ts), Tight n) :
    ∀ t ∈ ts, Separate t ∧ read (chars t) = t := by
  induction ts generalizing b with
  | nil => simp
  | cons t ts ih =>
    obtain ⟨n, ns, hm, hn, hns⟩ := List.map_eq_cons_iff.1 h
    rw [hm, List.forall_mem_cons] at htight
    rw [listChars] at hm
    have hsep := separate_of_first hb hm hn htight.1
    rw [List.forall_mem_cons]
    cases ts with
    | nil =>
      rw [charsRest, List.append_nil, hsep.members_eq hb, List.cons.injEq] at hm
      rw [← hm.1, read_append hb] at hn
      exact ⟨⟨hsep, hn⟩, by simp⟩
    | cons u us =>
      rw [List.dropLast_cons_of_ne_nil (by simp), List.forall_mem_cons] at hnest
      rw [charsRest_cons, hsep.members_cons hnest.1 hb, List.cons.injEq] at hm
      rw [← hm.1, read_append hb] at hn
      rw [← hm.2] at hns htight
      exact ⟨⟨hsep, hn⟩, ih (b := [' ']) (by simp [IsBlankText, isBlank]) hnest.2 hns htight.2⟩

theorem weight_listChars (ts : List ModelType) :
    weight (listChars ts) = (ts.map fun t => weight (chars t)).sum := by
  have hrest (ts : List ModelType) :
      weight (charsRest ts) = (ts.map fun t => weight (chars t)).sum := by
    induction ts with
    | nil => rfl
    | cons t ts ih =>
      rw [charsRest]
      simp only [List.cons_append, weight_cons, weight_append, ih, List.map_cons, List.sum_cons]
      rfl
  cases ts with
  | nil => rfl
  | cons t ts => rw [listChars, weight_append, hrest, List.map_cons, List.sum_cons]

theorem weight_innerChars (ts : List ModelType) :
    weight (innerChars ts) = (ts.map fun t => weight (chars t)).sum := by
  unfold innerChars
  split
  · simp [weight, isIdle]
  · exact weight_listChars ts

theorem Cuts.sum_weight {s : List Char} {ps : List (List Char)} (h : Cuts ',' s ps) :
    (ps.map weight).sum = weight s := by
  induction h with
  | last => simp
  | cons _ _ _ ih => simp [ih, isIdle]

theorem sum_weight_members_le (s : List Char) : ((members s).map weight).sum ≤ weight s := by
  have hcuts : Cuts ',' s (parts ',' s) := cuts_parts s
  rw [← hcuts.sum_weight]
  exact (List.filter_sublist.map weight).sum_le_sum fun _ _ => Nat.zero_le _

/-- Members that are read to the types that were printed have all that was printed. -/
theorem tight_of_members {s : List Char} {ts : List ModelType} (h : (members s).map read = ts)
    (hs : weight s = (ts.map fun t => weight (chars t)).sum) : ∀ n ∈ members s, Tight n := by
  have hle : ∀ n ∈ members s, weight (chars (read n)) ≤ weight n :=
    fun n _ => (keeps_read n).weight
  intro n hn
  by_contra hlt
  have hsum := List.sum_lt_sum _ _ hle ⟨n, hn, Nat.lt_of_le_of_ne (hle n hn) hlt⟩
  have hmembers := sum_weight_members_le s
  rw [← h, List.map_map] at hs
  exact absurd (Nat.lt_of_lt_of_le hsum hmembers) (by rw [hs]; exact Nat.lt_irrefl _)

/-- An only member that is read back from in front of a comma leads no deeper. -/
theorem nest_of_only {t : ModelType} {n : List Char} (hsep : Separate t)
    (hm : members (chars t ++ [',']) = [n]) (ht : read n = t) : nest (chars t) = 0 := by
  by_contra hne
  have huncut : Uncut ',' (chars t ++ [',']) := by
    simp only [Uncut, depths_append, depths_cons, List.mem_append, not_or]
    refine ⟨hsep.2, ?_⟩
    simpa [eq_comm] using hne
  rw [members_uncut huncut fun h => hsep.1 fun c hc => h c (List.mem_append_left _ hc)] at hm
  have hn : chars t ++ [','] = n := by simpa using hm
  have hcount := count_comma_read (s := n)
    (getLast?_trim_of_comma (x := []) (by simp) (by rw [← hn]; simp))
  rw [ht, ← hn] at hcount
  simp at hcount

theorem separate_of_inner {ts : List ModelType} (hnest : ∀ t ∈ ts.dropLast, nest (chars t) = 0)
    (h : (members (innerChars ts)).map read = ts) :
    (∀ t ∈ ts, Separate t ∧ read (chars t) = t) ∧ ∀ t, ts = [t] → nest (chars t) = 0 := by
  have hnil : IsBlankText [] := by simp [IsBlankText]
  have htight := tight_of_members h (weight_innerChars ts)
  by_cases hone : ∃ t, ts = [t]
  · obtain ⟨t, rfl⟩ := hone
    obtain ⟨n, ns, hm, hn, hns⟩ := List.map_eq_cons_iff.1 h
    obtain rfl := List.map_eq_nil_iff.1 hns
    have hsep : Separate t :=
      separate_of_first hnil (r := [',']) hm hn (htight n (hm ▸ List.mem_singleton_self n))
    have hzero := nest_of_only hsep hm hn
    have hcut := hsep.members_cons hzero hnil []
    rw [List.nil_append, List.nil_append, members_of_isBlankText hnil] at hcut
    rw [innerChars, hcut, List.cons.injEq] at hm
    rw [← hm.1] at hn
    refine ⟨by simpa using ⟨hsep, hn⟩, ?_⟩
    rintro u ⟨⟩
    exact hzero
  · have hlist : innerChars ts = listChars ts := by
      unfold innerChars
      split
      · exact absurd ⟨_, rfl⟩ hone
      · rfl
    rw [hlist] at h htight
    exact ⟨separate_of_members hnil hnest h htight, fun t ht => absurd ⟨t, ht⟩ hone⟩

section

variable {ms : List (List Char)} (hms : ∀ m ∈ ms, read (chars (read m)) = read m ↔ Legible (read m))
  (hnest : ∀ m ∈ ms.dropLast, nest m = 0)

include hnest in
theorem nest_map_read : ∀ t ∈ (ms.map read).dropLast, nest (chars t) = 0 := by
  rw [← List.map_dropLast, List.forall_mem_map]
  intro m hm
  rw [(keeps_read m).nest, hnest m hm]

include hms in
theorem legibleAll_of_separate (h : ∀ t ∈ ms.map read, Separate t ∧ read (chars t) = t) :
    LegibleAll (ms.map read) := by
  rw [legibleAll_iff, List.forall_mem_map]
  rw [List.forall_mem_map] at h
  exact fun m hm => ⟨(hms m hm).1 (h m hm).2, (h m hm).1⟩

include hms in
theorem map_read_chars (h : LegibleAll (ms.map read)) :
    (ms.map read).map (fun t => read (chars t)) = ms.map read := by
  rw [legibleAll_iff, List.forall_mem_map] at h
  rw [List.map_map]
  exact List.map_congr_left fun m hm => (hms m hm).2 (h m hm).1

include hms hnest in
theorem map_read_members_iff : (members (listChars (ms.map read))).map read = ms.map read ↔
    LegibleAll (ms.map read) := by
  have hnil : IsBlankText [] := by simp [IsBlankText]
  constructor
  · intro h
    have htight := tight_of_members h (weight_listChars _)
    exact legibleAll_of_separate hms
      (separate_of_members hnil (nest_map_read hnest) h htight)
  · intro h
    rw [← List.nil_append (listChars _), map_read_members (fun t ht => (legibleAll_iff.1 h t ht).2)
      (nest_map_read hnest) hnil, map_read_chars hms h]

include hms hnest in
theorem map_read_inner_iff : (members (innerChars (ms.map read))).map read = ms.map read ↔
    LegibleAll (ms.map read) ∧ ∀ t, ms.map read = [t] → nest (chars t) = 0 := by
  constructor
  · intro h
    obtain ⟨hsep, hone⟩ := separate_of_inner (nest_map_read hnest) h
    exact ⟨legibleAll_of_separate hms hsep, hone⟩
  · rintro ⟨h, hone⟩
    rw [map_read_inner (fun t ht => (legibleAll_iff.1 h t ht).2) (nest_map_read hnest) hone,
      map_read_chars hms h]

end

/-! ## Types that read back -/

theorem read_chars_named_nil {p : String} (hname : isAnonymousPath p.toList = false) :
    read (chars (.named p [])) = .named p [] ↔ Legible (.named p []) := by
  rw [chars_named_nil, Legible, read_eq]
  constructor
  · intro h
    generalize form (trim p.toList) = f at *
    cases f with
    | path q as =>
      rw [Form.type] at h
      split at h
      · cases h
      · injection h with hq has
        rw [List.map_eq_nil_iff] at has
        rw [← hq, has, String.toList_ofList]
    | _ => cases h
  · intro h
    rw [h, Form.type, hname, if_neg (by simp), String.ofList_toList, List.map_nil]

theorem prefix_of_prefix_append {w p y : List Char} {c : Char} (hc : c ∉ w)
    (h : w <+: p ++ c :: y) : w <+: p := by
  induction w generalizing p with
  | nil => exact List.nil_prefix
  | cons a w ih =>
    rw [List.mem_cons, not_or] at hc
    cases p with
    | nil => exact absurd (List.cons_prefix_cons.1 h).1.symm hc.1
    | cons b p =>
      rw [List.cons_append, List.cons_prefix_cons] at h
      exact List.cons_prefix_cons.2 ⟨h.1, ih hc.2 h.2⟩

theorem head?_of_isPrefix {x y : List Char} (h : x <+: y) {c : Char} (hc : c ∈ x.head?) :
    c ∈ y.head? := by
  obtain ⟨r, rfl⟩ := h
  rw [List.head?_append, Option.mem_def.1 hc]
  rfl

theorem trim_isPrefix {s : List Char} (h : ∀ c ∈ s.head?, isBlank c = false) : trim s <+: s := by
  obtain ⟨b, -, hs⟩ := exists_trimEnd s
  rw [trim, trimStart_eq_self h]
  exact ⟨b, hs.symm⟩

/-- A text that begins a path with an angle bracket behind it has the word for a mutable reference
only from the path. -/
theorem mutableWord_isPrefix_of_angle {x p z : List Char} (hx : x <+: p ++ '<' :: z)
    (hhead : ∀ c ∈ (p ++ '<' :: z).head?, isBlank c = false) (h : mutableWord <+: trim x) :
    mutableWord <+: p := by
  have hmut := h.trans (trim_isPrefix fun c hc => hhead c (head?_of_isPrefix hx hc))
  exact prefix_of_prefix_append (by decide) (hmut.trans hx)

/-- A printed type begins with the word for a mutable reference only where its text did. -/
theorem mutableWord_isPrefix {f : Form} {s : List Char} (hs : Spelled s f) (ht : trim s = s)
    (h : mutableWord <+: trim (chars (f.type s))) : mutableWord <+: s := by
  have hlit {a : Char} {x : List Char} (ha : isBlank a = false) (hm : a ≠ 'm')
      (h : mutableWord <+: trim (a :: x)) : False := by
    rw [trim_cons ha] at h
    exact hm (List.cons_prefix_cons.1 h).1.symm
  cases hs with
  | dynamic => exact h
  | mutable =>
    rw [Form.type, chars_mutable] at h
    exact (hlit (by decide) (by decide) h).elim
  | shared =>
    rw [Form.type, chars_shared] at h
    exact (hlit (by decide) (by decide) h).elim
  | array =>
    rw [Form.type, chars_array] at h
    exact (hlit (by decide) (by decide) h).elim
  | slice =>
    rw [Form.type, chars_slice] at h
    exact (hlit (by decide) (by decide) h).elim
  | tuple =>
    rw [Form.type, chars_tuple] at h
    exact (hlit (by decide) (by decide) h).elim
  | @generic p a _ _ =>
    have hhead (z : List Char) : ∀ c ∈ (p ++ '<' :: z).head?, isBlank c = false := by
      have := head?_trim (p ++ '<' :: (a ++ ['>']))
      rw [ht] at this
      cases p <;> exact this
    have hpath : mutableWord <+: p → mutableWord <+: p ++ '<' :: (a ++ ['>']) :=
      fun hp => hp.trans (List.prefix_append _ _)
    rcases chars_type_generic p a with hc | ⟨-, hc⟩ | ⟨t, ts, -, hc⟩
    · rwa [hc, ht] at h
    · rw [hc] at h
      exact hpath (mutableWord_isPrefix_of_angle (List.prefix_append p _) (hhead []) h)
    · rw [hc] at h
      exact hpath (mutableWord_isPrefix_of_angle List.prefix_rfl (hhead _) h)
  | path => rwa [chars_type_path, ht] at h

theorem after?_mutableWord_read {u : List Char} (hhead : ∀ c ∈ u.head?, isBlank c = false)
    (h : after? mutableWord u = none) : after? mutableWord (trim (chars (read u))) = none := by
  rw [Option.eq_none_iff_forall_ne_some] at h ⊢
  intro z hz
  rw [after?_eq_some_iff, read_eq] at hz
  have hmut := mutableWord_isPrefix (spelled_form (trim u)) (trim_trim u) ⟨z, hz.symm⟩
  obtain ⟨r, hr⟩ := hmut.trans (trim_isPrefix hhead)
  exact h r (after?_eq_some_iff.2 hr.symm)

theorem read_chars_mutable_blank {t : ModelType} (h : IsBlankText (chars t)) :
    read (chars (.reference true t)) = .reference false (read ['m', 'u', 't']) := by
  have htrim : trim (chars (.reference true t)) = ['&', 'm', 'u', 't'] := by
    have hb : IsBlankText (' ' :: chars t) := List.forall_mem_cons.2 ⟨rfl, h⟩
    rw [chars_mutable]
    exact (trim_cons rfl _).trans (congrArg _ (trimEnd_append_of_isBlankText hb ['m', 'u', 't']))
  have hform : form ['&', 'm', 'u', 't'] = .reference false ['m', 'u', 't'] := rfl
  rw [read_eq, htrim, hform, Form.type]

/-- An array whose text is cut at one semicolon is printed with one, and cut there again. -/
theorem read_chars_array_of_parts {e l : List Char} (h : parts ';' (e ++ ';' :: l) = [e, l]) :
    read (chars (.array (read e) (String.ofList (trim l)))) =
      .array (read (chars (read e))) (String.ofList (trim l)) := by
  have hcuts : Cuts ';' (e ++ ';' :: l) (parts ';' (e ++ ';' :: l)) := cuts_parts _
  rw [h] at hcuts
  have hel := hcuts.uncut
  have hn : nest e = 0 := hcuts.nest_dropLast (fun _ => true) e (by simp)
  rw [List.forall_mem_cons, List.forall_mem_singleton] at hel
  refine read_chars_array ?_ ?_ ?_ ?_
  · rw [Uncut, (keeps_read e).depths]
    exact hel.1
  · rw [(keeps_read e).nest, hn]
  · rw [String.toList_ofList, Uncut, (keeps_trim l).depths]
    exact hel.2
  · rw [String.toList_ofList, trim_trim]

theorem read_chars_slice_of_parts {e : List Char} (h : (parts ';' e).length ≠ 2) :
    read (chars (.slice (read e))) = .slice (read (chars (read e))) := by
  refine read_chars_slice ?_
  rw [(cuts_parts _).length_eq (by decide)] at h ⊢
  rwa [(keeps_read e).depths]

theorem read_chars_anonymous_iff {s : List Char} (h : read s = .anonymous (String.ofList s)) :
    read (chars (.anonymous (String.ofList s))) = .anonymous (String.ofList s) ↔
      Legible (.anonymous (String.ofList s)) := by
  rw [chars_anonymous, String.toList_ofList, Legible]
  exact iff_of_true h trivial

/-- A path with members that are read back exactly if they are legible. -/
theorem read_chars_generic_iff {p a : List Char}
    (hp : ∀ r, openAngle? 0 (p ++ '<' :: r) = some (p, r)) (hamp : p.head? ≠ some '&')
    (hhead : ∀ c ∈ p.head?, isBlank c = false) (hname : isAnonymousPath p = false)
    (ih : ∀ m ∈ members a, read (chars (read m)) = read m ↔ Legible (read m)) :
    let t : ModelType := .named (String.ofList p) ((members a).map read)
    read (chars t) = t ↔ Legible t := by
  intro t
  have hlist := map_read_members_iff ih nest_members
  simp only [t]
  generalize (members a).map read = ts at hlist ⊢
  cases ts with
  | nil => exact read_chars_named_nil (by rwa [String.toList_ofList])
  | cons t ts =>
    rw [read_chars_named_cons, named.injEq, legible_named_cons, ← hlist]
    · exact and_iff_right rfl
    all_goals rwa [String.toList_ofList]

/-- What is read from a text is read back from how it is printed exactly if it is legible. -/
theorem read_chars_read_iff (s : List Char) :
    read (chars (read s)) = read s ↔ Legible (read s) := by
  induction s using induction_on with
  | h s ih =>
    have hform := spelled_form (trim s)
    have hhead := head?_trim s
    have hread : read (trim s) = (form (trim s)).type (trim s) := by rw [read_trim, read_eq]
    rw [read_eq s]
    generalize form (trim s) = f at *
    generalize trim s = t at *
    cases hform with
    | dynamic => exact iff_of_true hread (by rw [Form.type, Legible]; trivial)
    | @mutable b u hb =>
      rw [Form.type, Legible, ← ih u (by simp [Form.inner])]
      by_cases hblank : IsBlankText (chars (read u))
      · rw [read_chars_mutable_blank hblank]
        simp [hblank]
      · rw [read_chars_mutable hblank]
        simp [hblank]
    | @shared b u hb hu hmut =>
      rw [Form.type, Legible, ← ih u (by simp [Form.inner]),
        read_chars_shared (after?_mutableWord_read hu hmut)]
      simp
    | @array e l hparts =>
      rw [Form.type, Legible, ← ih e (by simp [Form.inner]), read_chars_array_of_parts hparts]
      simp
    | @slice e hlen =>
      rw [Form.type, Legible, ← ih e (by simp [Form.inner]), read_chars_slice_of_parts hlen]
      simp
    | @tuple m =>
      rw [Form.type, Legible, read_chars_tuple, tuple.injEq]
      exact map_read_inner_iff ih nest_members
    | @generic p a hp hamp =>
      rw [Form.type] at hread ⊢
      by_cases hname : isAnonymousPath p = true
      · rw [if_pos hname] at hread ⊢
        exact read_chars_anonymous_iff hread
      · rw [if_neg hname]
        have hpath : ∀ c ∈ p.head?, isBlank c = false := by
          cases p with
          | nil => simp
          | cons c p => exact hhead
        exact read_chars_generic_iff hp hamp hpath (Bool.eq_false_iff.2 hname) ih
    | path =>
      rw [Form.type] at hread ⊢
      by_cases hname : isAnonymousPath t = true
      · rw [if_pos hname] at hread ⊢
        exact read_chars_anonymous_iff hread
      · rw [if_neg hname, List.map_nil]
        refine read_chars_named_nil ?_
        rwa [String.toList_ofList, Bool.eq_false_iff]

/-- A type that is parsed from a text is the one that is parsed from how it is printed exactly if it
is legible. -/
theorem parse_text_parse_iff (s : String) : parse (parse s).text = parse s ↔ Legible (parse s) := by
  rw [parse, parse, text, String.toList_ofList]
  exact read_chars_read_iff s.toList

/-- The `>` of an arrow closes a bracket, so the comma behind a function type cuts no tuple. -/
theorem function_in_tuple_unstable : ¬ ∀ s : String, parse (parse s).text = parse s :=
  fun h => absurd (h "(fn(u8) -> u8, bool)") (by decide +kernel)

end Sigil.ModelType
