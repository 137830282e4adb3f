import Sigil.Proofs.ModelType.Stable
import Sigil.Proofs.Text.Occurrence
import Sigil.Proofs.Template.Surface

/-!
# Types that are read from their names

A `Nameable` type is built from paths of identifiers, and paths with segments in braces for what has
no name of its own. It is read back from how it is printed, so two of them are never printed alike
(`nameable_round_trip`). The induction over the type carries that what is printed is `Closed`: its
brackets lead back to where it starts, and each comma and semicolon of it stands inside of them.
-/

namespace Sigil.ModelType

open Text
open Template (Identifier Digits isNamePart)

/-! ## Paths -/

/-- A segment that names what has no name: a closure, or the block with a number. -/
inductive Braced : List Char → Prop where
  | closure : Braced ['{', '{', 'c', 'l', 'o', 's', 'u', 'r', 'e', '}', '}']
  | asyncBlock {number : List Char} : Digits number →
      Braced (['{', 'a', 's', 'y', 'n', 'c', '_', 'b', 'l', 'o', 'c', 'k', '#'] ++ number ++ ['}'])

def isPathPart (c : Char) : Bool := isNamePart c || c == ':' || c == '{' || c == '}' || c == '#'

/-- A letter or digit; beyond ASCII every character counts that is no blank. -/
def isWordPart (c : Char) : Bool := c.isAlphanum || (decide (128 ≤ c.toNat) && !isBlank c)

/-- Types that have a name, and types whose path says where what they name was written. -/
inductive Nameable : ModelType → Prop where
  | dynamic : Nameable .dynamic
  | named {path : String} {segments : List (List Char)} {args : List ModelType} :
      path.toList = join [':', ':'] segments → segments ≠ [] →
      (∀ s ∈ segments, Identifier s) → (args = [] → segments ≠ [dynamicWord]) →
      (∀ t ∈ args, Nameable t) → Nameable (.named path args)
  | array {element : ModelType} {length : String} :
      Nameable element → (∀ c ∈ length.toList, isWordPart c = true) →
      Nameable (.array element length)
  | slice {element : ModelType} : Nameable element → Nameable (.slice element)
  | tuple {members : List ModelType} : (∀ t ∈ members, Nameable t) → Nameable (.tuple members)
  | reference {mutable : Bool} {inner : ModelType} :
      Nameable inner → Nameable (.reference mutable inner)
  | anonymous {path : String} {segments : List (List Char)} :
      path.toList = join [':', ':'] segments → (∀ s ∈ segments, Identifier s ∨ Braced s) →
      (∃ s ∈ segments, Braced s) → Nameable (.anonymous path)

/-! ## Characters -/

theorem not_blank_of_isWordPart {c : Char} (h : isWordPart c = true) : isBlank c = false := by
  simp only [isWordPart, Bool.or_eq_true, Bool.and_eq_true, Bool.not_eq_true'] at h
  exact h.elim not_blank_of_isAlphanum And.right

theorem not_blank_of_isPathPart {c : Char} (h : isPathPart c = true) : isBlank c = false := by
  simp only [isPathPart, isNamePart, Bool.or_eq_true, beq_iff_eq] at h
  rcases h with (((h | rfl) | rfl) | rfl) | rfl
  · rcases h with h | rfl
    · exact not_blank_of_isAlphanum h
    · decide
  all_goals decide

/-- Brackets, and the marks between the parts of a type. -/
def marks : List Char := ['(', ')', '[', ']', '<', '>', '{', '}', ',', ';', '&', ':', '#']

theorem notMem_marks_of_isNamePart {c : Char} (h : isNamePart c = true) : c ∉ marks := by
  intro hc
  have hall : marks.all (!isNamePart ·) = true := by decide
  simpa [h] using List.all_eq_true.1 hall c hc

theorem notMem_marks_of_isWordPart {c : Char} (h : isWordPart c = true) : c ∉ marks := by
  intro hc
  have hall : marks.all (!isWordPart ·) = true := by decide
  simpa [h] using List.all_eq_true.1 hall c hc

theorem nestingAngled_of_notMem {c : Char} (h : c ∉ marks) : nestingAngled c = 0 := by
  simp only [marks, List.mem_cons, List.not_mem_nil, or_false, not_or] at h
  simp [nestingAngled, nesting, h]

theorem nest_of_notMem {s : List Char} (h : ∀ c ∈ s, c ∉ marks) : nest s = 0 := by
  induction s with
  | nil => rfl
  | cons c s ih =>
    rw [List.forall_mem_cons] at h
    rw [nest_cons, nestingAngled_of_notMem h.1, ih h.2, Int.add_zero]

/-! ## Segments -/

theorem mem_join {sep : List Char} {fs : List (List Char)} {c : Char} (h : c ∈ join sep fs) :
    c ∈ sep ∨ ∃ f ∈ fs, c ∈ f := by
  induction fs with
  | nil => cases h
  | cons f fs ih =>
    by_cases hfs : fs = []
    · subst hfs
      exact .inr ⟨f, List.mem_singleton_self f, h⟩
    · rw [join_cons hfs, List.mem_append, List.mem_append] at h
      rcases h with (h | h) | h
      · exact .inr ⟨f, List.mem_cons_self, h⟩
      · exact .inl h
      · exact (ih h).imp_right fun ⟨g, hg, hc⟩ => ⟨g, List.mem_cons_of_mem f hg, hc⟩

theorem Braced.parts {s : List Char} (h : Braced s) : ∀ c ∈ s, isPathPart c = true := by
  cases h with
  | closure => exact List.all_eq_true.1 (by decide)
  | asyncBlock hn =>
    rw [List.forall_mem_append, List.forall_mem_append]
    refine ⟨⟨List.all_eq_true.1 (by decide), fun c hc => ?_⟩, List.all_eq_true.1 (by decide)⟩
    simp [isPathPart, isNamePart, Char.isAlphanum, hn.2 c hc]

theorem Braced.colon_notMem {s : List Char} (h : Braced s) : ':' ∉ s := by
  cases h with
  | closure => decide
  | asyncBlock hn =>
    rw [List.mem_append, List.mem_append, not_or, not_or]
    refine ⟨⟨by decide, fun hc => ?_⟩, by decide⟩
    cases hn.2 ':' hc

theorem Braced.brace_mem {s : List Char} (h : Braced s) : '{' ∈ s := by
  cases h <;> simp

theorem Braced.nest {s : List Char} (h : Braced s) : nest s = 0 := by
  cases h with
  | closure => rfl
  | @asyncBlock number hn =>
    have hz : ModelType.nest number = 0 := nest_of_notMem fun c hc =>
      notMem_marks_of_isNamePart (by simp [isNamePart, Char.isAlphanum, hn.2 c hc])
    rw [nest_append, nest_append, hz]
    rfl

section

variable {s : List Char} {segments : List (List Char)}

theorem parts_of_segment (h : Identifier s ∨ Braced s) : ∀ c ∈ s, isPathPart c = true := by
  rcases h with h | h
  · exact fun c hc => by simp [isPathPart, h.parts c hc]
  · exact h.parts

theorem colon_notMem_of_segment (h : Identifier s ∨ Braced s) : ':' ∉ s := by
  rcases h with h | h
  · exact fun hc => by cases h.parts ':' hc
  · exact h.colon_notMem

theorem nest_of_segment (h : Identifier s ∨ Braced s) : nest s = 0 := by
  rcases h with h | h
  · exact nest_of_notMem fun c hc => notMem_marks_of_isNamePart (h.parts c hc)
  · exact h.nest

/-- Whether a segment is one in braces can be seen at its start. -/
theorem startsWith_brace_iff (h : Identifier s ∨ Braced s) :
    startsWith (trimStart s) ['{'] = true ↔ Braced s := by
  rcases h with h | h
  · obtain ⟨x, r, rfl, hx, -⟩ := id h
    have hpart := h.parts x List.mem_cons_self
    have hx' : x ≠ '{' := by
      rintro rfl
      cases hpart
    rw [trimStart_eq_self fun c hc => by
      cases hc
      exact not_blank_of_isPathPart (parts_of_segment (.inl h) x List.mem_cons_self)]
    refine iff_of_false (by simp [startsWith, after?, hx'.symm]) fun hb => hx' ?_
    cases hb <;> rfl
  · refine iff_of_true ?_ h
    cases h <;> rfl

theorem parts_of_join (h : ∀ s ∈ segments, Identifier s ∨ Braced s) :
    ∀ c ∈ join [':', ':'] segments, isPathPart c = true := by
  intro c hc
  rcases mem_join hc with hc | ⟨s, hs, hc⟩
  · obtain rfl : c = ':' := by simpa using hc
    rfl
  · exact parts_of_segment (h s hs) c hc

theorem exists_head_of_join (hne : segments ≠ [])
    (h : ∀ s ∈ segments, Identifier s ∨ Braced s) :
    ∃ c r, join [':', ':'] segments = c :: r ∧ isBlank c = false := by
  have hparts := parts_of_join h
  obtain ⟨s, rest, rfl⟩ := List.exists_cons_of_ne_nil hne
  obtain ⟨c, r, rfl⟩ : ∃ c r, s = c :: r := by
    rcases h s List.mem_cons_self with ⟨c, r, rfl, -⟩ | hb
    · exact ⟨c, r, rfl⟩
    · cases hb <;> exact ⟨_, _, rfl⟩
  rw [join_cons_cons] at hparts ⊢
  exact ⟨c, _, rfl, not_blank_of_isPathPart (hparts c List.mem_cons_self)⟩

theorem nest_join (h : ∀ s ∈ segments, Identifier s ∨ Braced s) :
    nest (join [':', ':'] segments) = 0 := by
  induction segments with
  | nil => rfl
  | cons s segments ih =>
    rw [List.forall_mem_cons] at h
    by_cases hs : segments = []
    · rw [hs]
      exact nest_of_segment h.1
    · rw [join_cons hs, nest_append, nest_append, nest_of_segment h.1, ih h.2]
      rfl

theorem isAnonymousPath_join (hne : segments ≠ [])
    (h : ∀ s ∈ segments, Identifier s ∨ Braced s) :
    isAnonymousPath (join [':', ':'] segments) = true ↔ ∃ s ∈ segments, Braced s := by
  rw [isAnonymousPath, pieces_join _ hne fun s hs => colon_notMem_of_segment (h s hs),
    List.any_eq_true]
  exact exists_congr fun s => and_congr_right fun hs => startsWith_brace_iff (h s hs)

end

/-! ## Paths -/

section

variable {p : List Char} (hp : ∀ c ∈ p, isPathPart c = true)

include hp in
theorem notMem_path {c : Char} (h : isPathPart c = false) : c ∉ p :=
  fun hc => by simp [hp c hc] at h

include hp in
theorem trim_path : trim p = p :=
  trim_eq_self (fun c hc => not_blank_of_isPathPart (hp c (List.mem_of_mem_head? hc)))
    fun c hc => not_blank_of_isPathPart (hp c (List.mem_of_mem_getLast? hc))

theorem openAngle?_of_notMem {d : Int} {s : List Char} (h : '<' ∉ s) : openAngle? d s = none := by
  induction s generalizing d with
  | nil => rfl
  | cons c s ih =>
    rw [List.mem_cons, not_or] at h
    rw [openAngle?, if_neg fun hc => h.1 hc.1.symm, ih h.2, Option.map_none]

theorem nesting_of_mem_join {segments : List (List Char)} (h : ∀ s ∈ segments, Identifier s) :
    ∀ c ∈ join [':', ':'] segments, nesting c = 0 := by
  intro c hc
  rcases mem_join hc with hc | ⟨s, hs, hc⟩
  · obtain rfl : c = ':' := by simpa using hc
    rfl
  · have := notMem_marks_of_isNamePart ((h s hs).parts c hc)
    simp only [marks, List.mem_cons, List.not_mem_nil, or_false, not_or] at this
    simp [nesting, this]

theorem openAngle?_append {s : List Char} (hn : ∀ c ∈ s, nesting c = 0) (hs : '<' ∉ s)
    (r : List Char) : openAngle? 0 (s ++ '<' :: r) = some (s, r) := by
  induction s with
  | nil => rfl
  | cons c s ih =>
    rw [List.forall_mem_cons] at hn
    rw [List.mem_cons, not_or] at hs
    rw [List.cons_append, openAngle?, if_neg fun hc => hs.1 hc.1.symm, hn.1, Int.add_zero,
      ih hn.2 hs.2, Option.map_some]

include hp in
theorem form_of_path (hd : p ≠ dynamicWord) : form p = .path p [] := by
  have hamp : after? ['&'] p = none := by
    rw [Option.eq_none_iff_forall_ne_some]
    intro t ht
    rw [after?_eq_some_iff] at ht
    exact notMem_path hp (c := '&') (by decide) (ht ▸ List.mem_cons_self)
  have hbetween {a b : Char} (ha : isPathPart a = false) : between? a b p = none := by
    rw [Option.eq_none_iff_forall_ne_some]
    intro t ht
    rw [between?_eq_some_iff] at ht
    exact notMem_path hp ha (ht ▸ List.mem_cons_self)
  have hangle : openAngle? 0 p = none := openAngle?_of_notMem (notMem_path hp (by decide))
  simp only [form, hamp, hbetween (a := '[') (by decide), hbetween (a := '(') (by decide),
    pathForm, hangle]
  exact if_neg hd

end

/-! ## Closed texts -/

/-- A text whose brackets lead back to where it starts and that, at depth `k` or deeper, has no
comma or semicolon outside all brackets. -/
structure Closed (k : Int) (s : List Char) : Prop where
  nest : nest s = 0
  clear : ∀ sep ∈ [',', ';'], ∀ d, k ≤ d → 0 ∉ depths sep d s

theorem Closed.append {k : Int} {s t : List Char} (hs : Closed k s) (ht : Closed k t) :
    Closed k (s ++ t) := by
  refine ⟨by rw [nest_append, hs.nest, ht.nest]; rfl, fun sep hsep d hd => ?_⟩
  rw [depths_append, hs.nest, Int.add_zero, List.mem_append, not_or]
  exact ⟨hs.clear sep hsep d hd, ht.clear sep hsep d hd⟩

theorem Closed.inside {s : List Char} (hs : Closed 0 s) : Closed 1 s :=
  ⟨hs.nest, fun sep hsep d hd => hs.clear sep hsep d (by omega)⟩

theorem closed_of_notMem {k : Int} {s : List Char} (hn : nest s = 0) (hcomma : ',' ∉ s)
    (hsemi : ';' ∉ s) : Closed k s := by
  refine ⟨hn, fun sep hsep d _ => ?_⟩
  have hmem : sep ∉ s := by
    simp only [List.mem_cons, List.not_mem_nil, or_false] at hsep
    rcases hsep with rfl | rfl <;> assumption
  rw [depths_of_notMem hmem]
  exact List.not_mem_nil

/-- A comma or semicolon inside of brackets. -/
theorem closed_mark {sep : Char} (h : sep ∈ [',', ';']) : Closed 1 [sep] := by
  refine ⟨?_, fun m _ d hd => ?_⟩
  · simp only [List.mem_cons, List.not_mem_nil, or_false] at h
    rcases h with rfl | rfl <;> rfl
  · rw [depths_cons, depths_nil, List.append_nil]
    split
    · rw [List.mem_singleton]
      omega
    · exact List.not_mem_nil

/-- What is closed inside of brackets is closed with them around it. -/
theorem Closed.enclosed {a b : Char} {s : List Char} (h : Closed 1 s) (ha : nestingAngled a = 1)
    (hb : nestingAngled b = -1) : Closed 0 (a :: (s ++ [b])) := by
  have hsep {c sep : Char} (hc : nestingAngled c ≠ 0) (hs : sep ∈ [',', ';']) : c ≠ sep := by
    rintro rfl
    exact hc (by simpa using (closed_mark hs).nest)
  refine ⟨by simp [ha, hb, h.nest], fun sep hs d hd => ?_⟩
  rw [depths_cons, if_neg (hsep (by omega) hs), depths_append, depths_cons,
    if_neg (hsep (by omega) hs), ha]
  simpa using h.clear sep hs (d + 1) (by omega)

theorem Closed.uncut {s : List Char} (h : Closed 0 s) {sep : Char} (hsep : sep ∈ [',', ';']) :
    Uncut sep s := h.clear sep hsep 0 (Int.le_refl 0)

theorem closed_charsRest {ts : List ModelType} (h : ∀ t ∈ ts, Closed 0 (chars t)) :
    Closed 1 (charsRest ts) := by
  induction ts with
  | nil => exact closed_of_notMem rfl List.not_mem_nil List.not_mem_nil
  | cons t ts ih =>
    rw [List.forall_mem_cons] at h
    have hblank : Closed 1 [' '] := closed_of_notMem rfl (by decide) (by decide)
    rw [charsRest]
    exact (((closed_mark (by decide)).append hblank).append h.1.inside).append (ih h.2)

theorem closed_listChars {ts : List ModelType} (h : ∀ t ∈ ts, Closed 0 (chars t)) :
    Closed 1 (listChars ts) := by
  cases ts with
  | nil => exact closed_of_notMem rfl List.not_mem_nil List.not_mem_nil
  | cons t ts =>
    rw [List.forall_mem_cons] at h
    exact h.1.inside.append (closed_charsRest h.2)

theorem closed_innerChars {ts : List ModelType} (h : ∀ t ∈ ts, Closed 0 (chars t)) :
    Closed 1 (innerChars ts) := by
  unfold innerChars
  split
  · rw [List.forall_mem_singleton] at h
    exact h.inside.append (closed_mark (by decide))
  · exact closed_listChars h

theorem closed_path {segments : List (List Char)} (h : ∀ s ∈ segments, Identifier s ∨ Braced s) :
    Closed 0 (join [':', ':'] segments) :=
  closed_of_notMem (nest_join h) (notMem_path (parts_of_join h) (by decide))
    (notMem_path (parts_of_join h) (by decide))

theorem closed_word {s : List Char} (h : ∀ c ∈ s, isWordPart c = true) : Closed 0 s := by
  have hmarks : ∀ c ∈ s, c ∉ marks := fun c hc => notMem_marks_of_isWordPart (h c hc)
  exact closed_of_notMem (nest_of_notMem hmarks) (fun hc => hmarks ',' hc (by decide))
    fun hc => hmarks ';' hc (by decide)

/-! ## Printed types -/

theorem Nameable.closed {t : ModelType} (h : Nameable t) : Closed 0 (chars t) := by
  induction h with
  | dynamic => exact closed_of_notMem rfl (by decide) (by decide)
  | @named path segments args hpath _ hseg _ _ ih =>
    have hp : Closed 0 path.toList := hpath ▸ closed_path fun s hs => .inl (hseg s hs)
    cases args with
    | nil =>
      rw [chars_named_nil]
      exact hp
    | cons t ts =>
      rw [chars_named_cons]
      exact hp.append ((closed_listChars ih).enclosed rfl rfl)
  | @array element length _ hl ih =>
    have hblank : Closed 1 [' '] := closed_of_notMem rfl (by decide) (by decide)
    have hmark : Closed 1 [';'] := closed_mark (by decide)
    have hlen := hmark.append (hblank.append (closed_word hl).inside)
    rw [chars_array]
    exact (ih.inside.append hlen).enclosed rfl rfl
  | slice _ ih =>
    rw [chars_slice]
    exact ih.inside.enclosed rfl rfl
  | tuple _ ih =>
    rw [chars_tuple]
    exact (closed_innerChars ih).enclosed rfl rfl
  | @reference mutable _ _ ih =>
    have hamp : Closed 0 ['&'] := closed_of_notMem rfl (by decide) (by decide)
    have hmut : Closed 0 mutableWord := closed_of_notMem rfl (by decide) (by decide)
    cases mutable with
    | false =>
      rw [chars_shared]
      exact hamp.append ih
    | true =>
      rw [chars_mutable]
      exact hamp.append (hmut.append ih)
  | @anonymous path segments hpath hseg _ =>
    rw [chars_anonymous, hpath]
    exact closed_path hseg

theorem Nameable.head {t : ModelType} (h : Nameable t) :
    ∃ c r, chars t = c :: r ∧ isBlank c = false := by
  cases h with
  | dynamic => exact ⟨_, _, rfl, rfl⟩
  | @named path segments args hpath hne hseg _ _ =>
    obtain ⟨c, r, hc, hb⟩ := exists_head_of_join hne fun s hs => .inl (hseg s hs)
    cases args with
    | nil => exact ⟨c, r, by rw [chars_named_nil, hpath, hc], hb⟩
    | cons t ts => exact ⟨c, _, by rw [chars_named_cons, hpath, hc, List.cons_append], hb⟩
  | array => exact ⟨_, _, chars_array _ _, rfl⟩
  | slice => exact ⟨_, _, chars_slice _, rfl⟩
  | tuple => exact ⟨_, _, chars_tuple _, rfl⟩
  | @reference mutable _ _ =>
    cases mutable with
    | false => exact ⟨_, _, chars_shared _, rfl⟩
    | true => exact ⟨_, _, chars_mutable _, rfl⟩
  | @anonymous path segments hpath hseg hbrace =>
    obtain ⟨c, r, hc, hb⟩ := exists_head_of_join
      (List.ne_nil_of_mem hbrace.choose_spec.1) hseg
    exact ⟨c, r, by rw [chars_anonymous, hpath, hc], hb⟩

theorem Nameable.separate {t : ModelType} (h : Nameable t) : Separate t := by
  refine ⟨fun hblank => ?_, h.closed.uncut (by decide)⟩
  obtain ⟨c, r, hc, hb⟩ := h.head
  rw [hblank c (hc ▸ List.mem_cons_self)] at hb
  cases hb

/-- A printed type does not begin with the word for a mutable reference. -/
theorem Nameable.not_mutable {t : ModelType} (h : Nameable t) : ¬ mutableWord <+: chars t := by
  have hpath {p : List Char} {segments : List (List Char)} (hp : p = join [':', ':'] segments)
      (hseg : ∀ s ∈ segments, Identifier s ∨ Braced s) : ¬ mutableWord <+: p := fun hm =>
    notMem_path (parts_of_join hseg) (c := ' ') (by decide) (hp ▸ hm.subset (by decide))
  cases h with
  | dynamic => decide
  | @named path segments args hp _ hseg _ _ =>
    have hno := hpath hp fun s hs => .inl (hseg s hs)
    cases args with
    | nil => rwa [chars_named_nil]
    | cons t ts =>
      rw [chars_named_cons]
      exact fun hm => hno (prefix_of_prefix_append (by decide) hm)
  | array => simp [chars_array, mutableWord]
  | slice => simp [chars_slice, mutableWord]
  | tuple => simp [chars_tuple, mutableWord]
  | @reference mutable _ _ => cases mutable <;> simp [chars_shared, chars_mutable, mutableWord]
  | @anonymous path segments hp hseg _ =>
    rw [chars_anonymous]
    exact hpath hp hseg

/-! ## Reading back -/

theorem read_chars_anonymous {p : String} (hp : ∀ c ∈ p.toList, isPathPart c = true)
    (hname : isAnonymousPath p.toList = true) : read (chars (.anonymous p)) = .anonymous p := by
  have hd : p.toList ≠ dynamicWord := by
    intro hd
    rw [hd] at hname
    revert hname
    decide +kernel
  rw [chars_anonymous, read_of_form (trim_path hp) (form_of_path hp hd), Form.type, if_pos hname,
    String.ofList_toList]

theorem read_chars_path {p : String} (hp : ∀ c ∈ p.toList, isPathPart c = true)
    (hd : p.toList ≠ dynamicWord) (hname : isAnonymousPath p.toList = false) :
    read (chars (.named p [])) = .named p [] := by
  rw [read_chars_named_nil hname, Legible, trim_path hp, form_of_path hp hd]

/-- A path is the word for a dynamic type only if this is its only segment. -/
theorem join_ne_dynamicWord {segments : List (List Char)} (hne : segments ≠ [])
    (hseg : ∀ s ∈ segments, Identifier s ∨ Braced s) (hword : segments ≠ [dynamicWord]) :
    join [':', ':'] segments ≠ dynamicWord := by
  intro hd
  have hone : [dynamicWord] ≠ [] := by decide
  have hsingle := pieces_join (c := ':') (w := [':']) (by decide) hone (by decide)
  have hpieces := pieces_join (w := [':']) (by decide) hne
    fun s hs => colon_notMem_of_segment (hseg s hs)
  rw [hd] at hpieces
  refine hword ?_
  rw [← hpieces, ← hsingle]
  rfl

theorem isAnonymousPath_of_identifiers {segments : List (List Char)} (hne : segments ≠ [])
    (hseg : ∀ s ∈ segments, Identifier s) :
    isAnonymousPath (join [':', ':'] segments) = false := by
  rw [Bool.eq_false_iff, ne_eq, isAnonymousPath_join hne fun s hs => .inl (hseg s hs)]
  rintro ⟨s, hs, hb⟩
  cases (hseg s hs).parts '{' hb.brace_mem

section

variable {ts : List ModelType} (h : ∀ t ∈ ts, Nameable t) (hread : ∀ t ∈ ts, read (chars t) = t)

include h hread

theorem map_read_listChars : (members (listChars ts)).map read = ts := by
  have hnil : IsBlankText [] := by simp [IsBlankText]
  have hlist := map_read_members (fun t ht => (h t ht).separate)
    (fun u hu => (h u (List.dropLast_subset _ hu)).closed.nest) hnil
  rw [List.nil_append] at hlist
  rw [hlist, List.map_congr_left hread, List.map_id']

theorem map_read_innerChars : (members (innerChars ts)).map read = ts := by
  have hinner := map_read_inner (fun t ht => (h t ht).separate)
    (fun u hu => (h u (List.dropLast_subset _ hu)).closed.nest)
    (fun t ht => (h t (ht ▸ List.mem_singleton_self t)).closed.nest)
  rw [hinner, List.map_congr_left hread, List.map_id']

end

theorem Nameable.read_chars {t : ModelType} (h : Nameable t) : read (chars t) = t := by
  induction h with
  | dynamic => decide +kernel
  | @named path segments args hpath hne hseg hword hargs ih =>
    have hseg' : ∀ s ∈ segments, Identifier s ∨ Braced s := fun s hs => .inl (hseg s hs)
    have hp : ∀ c ∈ path.toList, isPathPart c = true := hpath ▸ parts_of_join hseg'
    have hname : isAnonymousPath path.toList = false :=
      hpath ▸ isAnonymousPath_of_identifiers hne hseg
    cases args with
    | nil => exact read_chars_path hp (hpath ▸ join_ne_dynamicWord hne hseg' (hword rfl)) hname
    | cons t ts =>
      have hangle (r : List Char) :
          openAngle? 0 (path.toList ++ '<' :: r) = some (path.toList, r) :=
        openAngle?_append (hpath ▸ nesting_of_mem_join hseg)
          (notMem_path hp (c := '<') (by decide)) r
      rw [read_chars_named_cons hangle
        (fun c hc => not_blank_of_isPathPart (hp c (List.mem_of_mem_head? hc)))
        (fun hc => notMem_path hp (c := '&') (by decide) (List.mem_of_mem_head? hc)) hname,
        map_read_listChars hargs ih]
  | @array element length he hl ih =>
    have hlen := closed_word hl
    have htrim : trim length.toList = length.toList :=
      trim_eq_self (fun c hc => not_blank_of_isWordPart (hl c (List.mem_of_mem_head? hc)))
        fun c hc => not_blank_of_isWordPart (hl c (List.mem_of_mem_getLast? hc))
    rw [read_chars_array (he.closed.uncut (by decide)) he.closed.nest (hlen.uncut (by decide))
      htrim, ih]
  | slice he ih =>
    have huncut : Uncut ';' (chars _) := he.closed.uncut (by decide)
    have hone := (Cuts.last huncut).parts_eq
    rw [read_chars_slice (by rw [hone]; simp), ih]
  | @tuple members hm ih => rw [read_chars_tuple, map_read_innerChars hm ih]
  | @reference mutable inner hi ih =>
    cases mutable with
    | true => rw [read_chars_mutable hi.separate.1, ih]
    | false =>
      obtain ⟨c, r, hc, hb⟩ := hi.head
      have hnone : after? mutableWord (chars inner) = none := by
        rw [Option.eq_none_iff_forall_ne_some]
        exact fun z hz => hi.not_mutable ⟨z, (after?_eq_some_iff.1 hz).symm⟩
      have hafter := after?_mutableWord_read (u := chars inner)
        (by rw [hc]; rintro d ⟨⟩; exact hb) hnone
      rw [ih] at hafter
      rw [read_chars_shared hafter, ih]
  | @anonymous path segments hpath hseg hbrace =>
    refine read_chars_anonymous (hpath ▸ parts_of_join hseg) ?_
    rw [hpath, isAnonymousPath_join (List.ne_nil_of_mem hbrace.choose_spec.1) hseg]
    exact hbrace

/-- A type that has a name is read from how it is printed, so two of them are printed apart. -/
theorem nameable_round_trip :
    (∀ t, Nameable t → parse t.text = t) ∧
      ∀ t u, Nameable t → Nameable u → t ≠ u → t.text ≠ u.text := by
  have hparse : ∀ t, Nameable t → parse t.text = t := fun t ht => by
    rw [parse, text, String.toList_ofList, ht.read_chars]
  refine ⟨hparse, fun t u ht hu hne htext => hne ?_⟩
  rw [← hparse t ht, ← hparse u hu, htext]

/-- A mutable reference to a pair of a named type, with an array and a slice as its arguments, and a
block inside a closure. -/
def blockReference : ModelType :=
  .reference true (.tuple
    [.named "std::Map" [.array (.named "u8" []) "16", .slice .dynamic],
      .anonymous "f::\x7b\x7bclosure\x7d\x7d::\x7basync_block#3\x7d"])

theorem nameable_blockReference : Nameable blockReference := by
  have hu : Identifier ['u', '8'] := ⟨'u', ['8'], rfl, rfl, List.all_eq_true.1 (by decide)⟩
  have hstd : Identifier ['s', 't', 'd'] :=
    ⟨'s', ['t', 'd'], rfl, rfl, List.all_eq_true.1 (by decide)⟩
  have hmap : Identifier ['M', 'a', 'p'] :=
    ⟨'M', ['a', 'p'], rfl, rfl, List.all_eq_true.1 (by decide)⟩
  have hf : Identifier ['f'] := ⟨'f', [], rfl, rfl, List.all_eq_true.1 (by decide)⟩
  have hdigits : Digits ['3'] := ⟨nofun, List.all_eq_true.1 (by decide)⟩
  have hnumber : Braced _ := .asyncBlock hdigits
  have hu8 : Nameable (.named "u8" []) := by
    have hpath : "u8".toList = join [':', ':'] [['u', '8']] := rfl
    exact .named hpath (by simp) (by simpa using hu) (by decide) (by simp)
  have hstdMap : Nameable (.named "std::Map" [.array (.named "u8" []) "16", .slice .dynamic]) := by
    have hpath : "std::Map".toList = join [':', ':'] [['s', 't', 'd'], ['M', 'a', 'p']] := rfl
    exact .named hpath (by simp) (by simpa using ⟨hstd, hmap⟩) (by simp)
      (by simpa using ⟨.array hu8 (List.all_eq_true.1 (by decide)), .slice .dynamic⟩)
  have hblock : Nameable (.anonymous "f::{{closure}}::{async_block#3}") := by
    have hpath : "f::{{closure}}::{async_block#3}".toList =
        join [':', ':'] [['f'], ['{', '{', 'c', 'l', 'o', 's', 'u', 'r', 'e', '}', '}'],
          ['{', 'a', 's', 'y', 'n', 'c', '_', 'b', 'l', 'o', 'c', 'k', '#', '3', '}']] := rfl
    refine .anonymous hpath ?_ ⟨_, by simp, .closure⟩
    simp only [List.forall_mem_cons]
    exact ⟨.inl hf, .inr .closure, .inr hnumber, by simp⟩
  exact .reference (.tuple (by simpa using ⟨hstdMap, hblock⟩))

theorem block_reference_round_trip :
    Nameable blockReference ∧ parse blockReference.text = blockReference ∧
      Nameable (.tuple [.dynamic]) ∧ blockReference.text ≠ (ModelType.tuple [.dynamic]).text := by
  have htuple : Nameable (.tuple [.dynamic]) := .tuple (by simpa using .dynamic)
  exact ⟨nameable_blockReference, nameable_round_trip.1 _ nameable_blockReference, htuple,
    nameable_round_trip.2 _ _ nameable_blockReference htuple (by simp [blockReference])⟩

end Sigil.ModelType
