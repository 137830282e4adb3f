import Sigil.Proofs.ModelType.Form

/-!
# What printing a type keeps

A type that is read from a text and printed again leaves out blanks and empty members and puts in
commas and blanks of its own. `Keeps` says what this does not change: how deep the brackets lead,
how deep every semicolon stands, and that no other character is added (`keeps_read`). A text that
loses no other character either is `Tight`: it is printed with the ends that it had.
-/

namespace Sigil.ModelType

open Text

/-! ## Lists of types -/

def listChars : List ModelType → List Char
  | [] => []
  | t :: ts => chars t ++ charsRest ts

/-- What a tuple holds between its parentheses. -/
def innerChars : List ModelType → List Char
  | [t] => chars t ++ [',']
  | ts => listChars ts

theorem charsRest_cons (t : ModelType) (ts : List ModelType) :
    charsRest (t :: ts) = ',' :: ' ' :: listChars (t :: ts) := rfl

theorem chars_tuple (ts : List ModelType) : chars (.tuple ts) = '(' :: (innerChars ts ++ [')']) := by
  match ts with
  | [] => rfl
  | [t] => simp [chars, innerChars]
  | t :: u :: ts => simp [chars, innerChars, listChars]

theorem chars_named_nil (p : String) : chars (.named p []) = p.toList := rfl

theorem chars_named_cons (p : String) (t : ModelType) (ts : List ModelType) :
    chars (.named p (t :: ts)) = p.toList ++ '<' :: (listChars (t :: ts) ++ ['>']) := by
  simp [chars, listChars]

theorem chars_array (e : ModelType) (l : String) :
    chars (.array e l) = '[' :: (chars e ++ ';' :: ' ' :: l.toList ++ [']']) := by
  simp [chars]

theorem chars_slice (e : ModelType) : chars (.slice e) = '[' :: (chars e ++ [']']) := rfl

theorem chars_mutable (t : ModelType) :
    chars (.reference true t) = '&' :: (mutableWord ++ chars t) := rfl

theorem chars_shared (t : ModelType) : chars (.reference false t) = '&' :: chars t := rfl

theorem chars_anonymous (p : String) : chars (.anonymous p) = p.toList := rfl

/-- A path without members is printed as it is, whatever it stands for. -/
theorem chars_type_path (s : List Char) : chars (Form.type s (.path s [])) = s := by
  rw [Form.type]
  split
  · rw [chars_anonymous, String.toList_ofList]
  · rw [List.map_nil, chars_named_nil, String.toList_ofList]

/-- A path with angle brackets is printed as it is if it is anonymous. Otherwise its members are
printed anew, and the brackets are left out if there are none. -/
theorem chars_type_generic (p a : List Char) :
    let text := p ++ '<' :: (a ++ ['>'])
    let printed := chars (Form.type text (.path p (members a)))
    printed = text ∨ (members a).map read = [] ∧ printed = p ∨
      ∃ t ts, (members a).map read = t :: ts ∧ printed = p ++ '<' :: (listChars (t :: ts) ++ ['>']) := by
  intro text printed
  by_cases hp : isAnonymousPath p = true
  · left
    simp only [printed, Form.type, if_pos hp, chars_anonymous, String.toList_ofList]
  · right
    simp only [printed, Form.type, if_neg hp]
    cases (members a).map read with
    | nil => exact .inl ⟨rfl, by rw [chars_named_nil, String.toList_ofList]⟩
    | cons t ts => exact .inr ⟨t, ts, rfl, by rw [chars_named_cons, String.toList_ofList]⟩

/-! ## Weight -/

/-- How many characters of a text are neither blank nor a comma. -/
def weight (s : List Char) : Nat := s.countP fun c => !isIdle c

@[simp] theorem weight_append (s t : List Char) : weight (s ++ t) = weight s + weight t :=
  List.countP_append

@[simp] theorem weight_nil : weight [] = 0 := rfl

@[simp] theorem weight_cons (c : Char) (s : List Char) :
    weight (c :: s) = weight s + if isIdle c then 0 else 1 := by
  by_cases h : isIdle c <;> simp [weight, h]

theorem weight_eq_zero_iff {s : List Char} : weight s = 0 ↔ ∀ c ∈ s, isIdle c = true := by
  simp [weight, List.countP_eq_zero]

/-! ## What is kept -/

/-- A text is replaced by one whose brackets lead as deep, whose semicolons stand as deep and that
has no further characters but blanks and commas. -/
structure Keeps (s x : List Char) : Prop where
  nest : nest x = nest s
  depths : ∀ d, depths ';' d x = depths ';' d s
  weight : weight x ≤ weight s

theorem Keeps.refl (s : List Char) : Keeps s s := ⟨rfl, fun _ => rfl, Nat.le_refl _⟩

theorem Keeps.trans {s x y : List Char} (h : Keeps s x) (h' : Keeps x y) : Keeps s y :=
  ⟨h'.nest.trans h.nest, fun d => (h'.depths d).trans (h.depths d), Nat.le_trans h'.weight h.weight⟩

theorem Keeps.append {s t x y : List Char} (h : Keeps s x) (h' : Keeps t y) :
    Keeps (s ++ t) (x ++ y) := by
  refine ⟨?_, fun d => ?_, ?_⟩
  · rw [nest_append, nest_append, h.nest, h'.nest]
  · rw [depths_append, depths_append, h.depths, h.nest, h'.depths]
  · rw [weight_append, weight_append]
    exact Nat.add_le_add h.weight h'.weight

theorem Keeps.cons (c : Char) {s x : List Char} (h : Keeps s x) : Keeps (c :: s) (c :: x) :=
  (Keeps.refl [c]).append h

theorem keeps_of_isIdle {s x : List Char} (hs : ∀ c ∈ s, isIdle c = true)
    (hx : ∀ c ∈ x, isIdle c = true) : Keeps s x := by
  have hsemi {u : List Char} (hu : ∀ c ∈ u, isIdle c = true) : ';' ∉ u := fun h => by
    cases hu ';' h
  refine ⟨?_, fun d => ?_, ?_⟩
  · rw [nest_of_isIdle hs, nest_of_isIdle hx]
  · rw [depths_of_notMem (hsemi hs), depths_of_notMem (hsemi hx)]
  · rw [weight_eq_zero_iff.2 hx]
    exact Nat.zero_le _

theorem keeps_drop {b : List Char} (hb : IsBlankText b) (s : List Char) : Keeps (b ++ s) s :=
  (keeps_of_isIdle (x := []) (isIdle_of_isBlankText hb) (by simp)).append (Keeps.refl s)

theorem keeps_trim (s : List Char) : Keeps s (trim s) := by
  obtain ⟨a, b, ha, hb, hs⟩ := exists_trim s
  have hend := (Keeps.refl (trim s)).append
    (keeps_of_isIdle (x := []) (isIdle_of_isBlankText hb) (by simp))
  rw [List.append_nil] at hend
  conv => enter [1]; rw [hs]
  exact (keeps_drop ha _).trans hend

theorem keeps_angles {a : List Char} (h : Keeps a []) : Keeps ('<' :: (a ++ ['>'])) [] := by
  refine ⟨?_, fun d => ?_, Nat.zero_le _⟩
  · rw [nest_cons, nest_append, ← h.nest]
    rfl
  · rw [depths_cons, depths_append, ← h.depths]
    rfl

/-- The parts of a text cut at its commas, printed without the blank ones. -/
theorem Cuts.keeps_charsRest {s : List Char} {ps : List (List Char)} (h : Cuts ',' s ps)
    (hread : ∀ m ∈ ps, trim m ≠ [] → Keeps m (chars (read m))) :
    Keeps s (charsRest ((ps.filter fun m => !(trim m).isEmpty).map read)) := by
  have hone {m : List Char} (hm : trim m ≠ [] → Keeps m (chars (read m))) (ms : List (List Char)) :
      ∃ x, Keeps m x ∧ charsRest (((m :: ms).filter fun m => !(trim m).isEmpty).map read) =
        x ++ charsRest ((ms.filter fun m => !(trim m).isEmpty).map read) := by
    by_cases hb : trim m = []
    · exact ⟨[], keeps_of_isIdle (isIdle_of_isBlankText ((trim_eq_nil_iff m).1 hb)) (by simp),
        by simp [hb]⟩
    · have hsep : Keeps [] [',', ' '] := keeps_of_isIdle (by simp) (by simp)
      exact ⟨[',', ' '] ++ chars (read m), hsep.append (hm hb), by simp [hb, charsRest]⟩
  induction h with
  | @last s _ =>
    obtain ⟨x, hx, he⟩ := hone (hread s (by simp)) []
    rw [he]
    simpa [charsRest] using hx
  | @cons s r ps _ _ _ ih =>
    rw [List.forall_mem_cons] at hread
    obtain ⟨x, hx, he⟩ := hone hread.1 ps
    rw [he]
    have hcomma : Keeps [','] [] := keeps_of_isIdle (by simp) (by simp)
    exact hx.append (hcomma.append (ih hread.2))

theorem keeps_list_of_charsRest {s : List Char} {ts : List ModelType}
    (h : Keeps s (charsRest ts)) : Keeps s (listChars ts) ∧ Keeps s (innerChars ts) := by
  have hlist : Keeps s (listChars ts) := by
    cases ts with
    | nil => exact h
    | cons t ts =>
      exact h.trans ((keeps_of_isIdle (s := [',', ' ']) (x := []) (by simp) (by simp)).append
        (Keeps.refl _))
  refine ⟨hlist, ?_⟩
  unfold innerChars
  split
  · rename_i t
    refine hlist.trans ?_
    rw [listChars, charsRest]
    exact (Keeps.refl (chars t)).append (keeps_of_isIdle (by simp) (by simp))
  · exact hlist

theorem keeps_members {s : List Char} (h : ∀ m ∈ members s, Keeps m (chars (read m))) :
    Keeps s (listChars ((members s).map read)) ∧ Keeps s (innerChars ((members s).map read)) :=
  keeps_list_of_charsRest <| (cuts_parts s).keeps_charsRest fun m hm hb =>
    h m (List.mem_filter.2 ⟨hm, by simp [hb]⟩)

theorem keeps_chars_type {s : List Char} {f : Form} (hs : Spelled s f)
    (h : ∀ m ∈ f.inner, Keeps m (chars (read m))) : Keeps s (chars (f.type s)) := by
  cases hs with
  | dynamic => exact .refl _
  | @mutable b u hb =>
    rw [Form.type, chars_mutable]
    have hu : Keeps u (chars (read u)) := h u (by simp [Form.inner])
    exact .cons _ ((keeps_drop hb _).trans ((Keeps.refl _).append hu))
  | @shared b u hb _ _ =>
    rw [Form.type, chars_shared]
    exact .cons _ ((keeps_drop hb _).trans (h u (by simp [Form.inner])))
  | @array e l _ =>
    rw [Form.type, chars_array, String.toList_ofList]
    have hl : Keeps l (' ' :: trim l) :=
      (keeps_trim l).trans ((keeps_of_isIdle (s := []) (x := [' ']) (by simp) (by simp)).append
        (.refl _))
    exact .cons _ (((h e (by simp [Form.inner])).append (.cons _ hl)).append (.refl _))
  | @slice e _ =>
    rw [Form.type, chars_slice]
    exact .cons _ ((h e (by simp [Form.inner])).append (.refl _))
  | @tuple m =>
    rw [Form.type, chars_tuple]
    exact .cons _ ((keeps_members h).2.append (.refl _))
  | @generic p a _ _ =>
    have ha := (keeps_members h).1
    rcases chars_type_generic p a with hc | ⟨hts, hc⟩ | ⟨t, ts, hts, hc⟩
    · rw [hc]
      exact .refl _
    · rw [hts] at ha
      rw [hc]
      have := (Keeps.refl p).append (keeps_angles ha)
      rwa [List.append_nil] at this
    · rw [hts] at ha
      rw [hc]
      exact (Keeps.refl p).append (.cons _ (ha.append (.refl _)))
  | path =>
    rw [chars_type_path]
    exact .refl _

/-- Reading a text and printing the type keeps the depths of brackets and semicolons and adds no
character but blanks and commas. -/
theorem keeps_read (s : List Char) : Keeps s (chars (read s)) := by
  induction s using induction_on with
  | h s ih =>
    rw [read_eq]
    exact (keeps_trim s).trans (keeps_chars_type (spelled_form (trim s)) ih)

/-! ## Ends of a printed text -/

theorem getLast?_append_trim {x u : List Char} (hu : trim u ≠ [])
    (h : ∀ c ∈ (x ++ u).getLast?, isBlank c = false) :
    (x ++ u).getLast? = (trim u).getLast? := by
  obtain ⟨a, b, -, hb, hs⟩ := exists_trim u
  have hsplit : x ++ u = x ++ a ++ trim u ++ b := by
    conv => enter [1]; rw [hs]
    simp
  rw [hsplit] at h ⊢
  rw [hb.eq_nil_of_getLast? h, List.append_nil, List.getLast?_append_of_ne_nil _ hu]

/-- A text in front of which something else is printed, where what follows keeps its end. -/
theorem getLast?_append_eq {x y u v : List Char}
    (hx : ∀ c ∈ (x ++ u).getLast?, isBlank c = false) (hv : v.getLast? = (trim u).getLast?)
    (hnil : trim u = [] → y.getLast? = (x ++ u).getLast?) :
    (y ++ v).getLast? = (x ++ u).getLast? := by
  by_cases hu : trim u = []
  · rw [hu] at hv
    rw [List.getLast?_eq_none_iff.1 hv, List.append_nil, hnil hu]
  · have hne : v ≠ [] := by
      rintro rfl
      exact hu (List.getLast?_eq_none_iff.1 hv.symm)
    rw [getLast?_append_trim hu hx, List.getLast?_append_of_ne_nil _ hne, hv]

theorem getLast?_enclosed (a b : Char) (x : List Char) : (a :: (x ++ [b])).getLast? = some b := by
  rw [← List.cons_append, List.getLast?_concat]

/-- A text that loses nothing but blanks and commas when it is read and printed. -/
def Tight (s : List Char) : Prop := weight (chars (read s)) = weight s

theorem weight_of_isBlankText {b : List Char} (hb : IsBlankText b) : weight b = 0 :=
  weight_eq_zero_iff.2 (isIdle_of_isBlankText hb)

/-- A text is tight if it is printed behind something that weighs as much as what stood in front of
it, and nothing is lost in both together. -/
theorem tight_of_weight_append {x y u : List Char} (hxy : weight x = weight y)
    (h : weight (y ++ chars (read u)) = weight (x ++ u)) : Tight u := by
  rw [weight_append, weight_append, hxy] at h
  exact Nat.add_left_cancel h

theorem Tight.type_trim {s : List Char} (h : Tight s) :
    weight (chars ((form (trim s)).type (trim s))) = weight (trim s) := by
  have hle := (keeps_trim s).weight
  have hge := (keeps_read (trim s)).weight
  rw [read_trim] at hge
  rw [← read_eq]
  rw [Tight] at h
  omega

theorem Tight.ends {s : List Char} (h : Tight s) :
    (chars (read s)).head? = (trim s).head? ∧ (chars (read s)).getLast? = (trim s).getLast? := by
  induction s using induction_on with
  | h s ih =>
    have hw := h.type_trim
    have hform := spelled_form (trim s)
    have hlast := getLast?_trim s
    rw [read_eq]
    generalize form (trim s) = f at *
    generalize trim s = t at *
    cases hform with
    | dynamic => exact ⟨rfl, rfl⟩
    | @mutable b u hb =>
      rw [Form.type, chars_mutable] at hw ⊢
      have hsplit : '&' :: (b ++ (mutableWord ++ u)) = ('&' :: b ++ mutableWord) ++ u := by simp
      rw [hsplit] at hw hlast ⊢
      have hu : Tight u := tight_of_weight_append (y := '&' :: mutableWord)
        (by simp [weight_of_isBlankText hb]) hw
      obtain ⟨-, hl⟩ := ih u (by simp [Form.inner]) hu
      refine ⟨rfl, getLast?_append_eq (y := '&' :: mutableWord) hlast hl fun hnil => ?_⟩
      rw [trim_eq_nil_iff] at hnil
      obtain rfl := hnil.eq_nil_of_getLast? hlast
      rw [List.append_nil, List.getLast?_append_of_ne_nil _ (by simp [mutableWord])]
      rfl
    | @shared b u hb _ _ =>
      rw [Form.type, chars_shared] at hw ⊢
      have hu : Tight u := tight_of_weight_append (x := '&' :: b) (y := ['&'])
        (by simp [weight_of_isBlankText hb]) hw
      obtain ⟨-, hl⟩ := ih u (by simp [Form.inner]) hu
      refine ⟨rfl, getLast?_append_eq (x := '&' :: b) (y := ['&']) hlast hl fun hnil => ?_⟩
      rw [trim_eq_nil_iff] at hnil
      have hblank : IsBlankText (b ++ u) := List.forall_mem_append.2 ⟨hb, hnil⟩
      have := hblank.eq_nil_of_getLast? (s := ['&']) hlast
      rw [List.cons_append, this]
    | @array e l _ =>
      rw [Form.type, chars_array]
      exact ⟨rfl, by rw [getLast?_enclosed, getLast?_enclosed]⟩
    | @slice e _ =>
      rw [Form.type, chars_slice]
      exact ⟨rfl, by rw [getLast?_enclosed, getLast?_enclosed]⟩
    | @tuple m =>
      rw [Form.type, chars_tuple]
      exact ⟨rfl, by rw [getLast?_enclosed, getLast?_enclosed]⟩
    | @generic p a _ _ =>
      rcases chars_type_generic p a with hc | ⟨-, hc⟩ | ⟨t, ts, -, hc⟩
      · rw [hc]
        exact ⟨rfl, rfl⟩
      · -- without the brackets it would weigh less
        have hangle : isIdle '<' = false := by decide
        rw [hc, weight_append, weight_cons, hangle, if_neg (by simp)] at hw
        omega
      · rw [hc]
        refine ⟨by cases p <;> rfl, ?_⟩
        rw [List.getLast?_append_of_ne_nil _ (by simp), List.getLast?_append_of_ne_nil _ (by simp),
          getLast?_enclosed, getLast?_enclosed]
    | path =>
      rw [chars_type_path]
      exact ⟨rfl, rfl⟩

theorem count_comma_of_isBlankText {b : List Char} (hb : IsBlankText b) : b.count ',' = 0 :=
  List.count_eq_zero.2 fun h => by cases hb ',' h

theorem count_comma_trim (s : List Char) : (trim s).count ',' = s.count ',' := by
  obtain ⟨a, b, ha, hb, hs⟩ := exists_trim s
  conv => enter [2]; rw [hs]
  rw [List.count_append, List.count_append, count_comma_of_isBlankText ha,
    count_comma_of_isBlankText hb]
  simp

/-- A comma at the end of a text stands at the end of what follows a part without commas. -/
theorem getLast?_trim_of_comma {x u : List Char} (hx : ',' ∉ x)
    (h : (x ++ u).getLast? = some ',') : (trim u).getLast? = some ',' := by
  have hlast : ∀ c ∈ (x ++ u).getLast?, isBlank c = false := by
    rw [h]
    rintro c ⟨⟩
    rfl
  by_cases hnil : trim u = []
  · obtain rfl := ((trim_eq_nil_iff u).1 hnil).eq_nil_of_getLast? hlast
    rw [List.append_nil] at h
    exact absurd (List.mem_of_getLast? h) hx
  · rw [← getLast?_append_trim hnil hlast, h]

/-- A text with a comma at its end is printed with the commas that it had. -/
theorem count_comma_read {s : List Char} (h : (trim s).getLast? = some ',') :
    (chars (read s)).count ',' = s.count ',' := by
  induction s using induction_on with
  | h s ih =>
    have hform := spelled_form (trim s)
    rw [read_eq, ← count_comma_trim s]
    generalize form (trim s) = f at *
    generalize trim s = t at *
    cases hform with
    | dynamic => cases h
    | @mutable b u hb =>
      have hcomma : ',' ∉ '&' :: b ++ mutableWord := by
        simp [mutableWord, List.count_eq_zero.1 (count_comma_of_isBlankText hb)]
      have hu := ih u (by simp [Form.inner]) (getLast?_trim_of_comma hcomma (by simpa using h))
      rw [Form.type, chars_mutable]
      simp [hu, count_comma_of_isBlankText hb]
    | @shared b u hb _ _ =>
      have hcomma : ',' ∉ '&' :: b := by
        simp [List.count_eq_zero.1 (count_comma_of_isBlankText hb)]
      have hu := ih u (by simp [Form.inner]) (getLast?_trim_of_comma hcomma (by simpa using h))
      rw [Form.type, chars_shared]
      simp [hu, count_comma_of_isBlankText hb]
    | array | slice | tuple =>
      rw [getLast?_enclosed] at h
      cases h
    | @generic p a _ _ =>
      rw [List.getLast?_append_of_ne_nil _ (by simp), getLast?_enclosed] at h
      cases h
    | path => rw [chars_type_path]

end Sigil.ModelType
