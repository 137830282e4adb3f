/-!
# Cutting and joining texts

Texts are lists of characters here. `fields` cuts at a character and `pieces` at a fixed word;
`replaceAll` is a left-to-right replacement of a word; `lines` cuts at line feeds. The main
statements say that cutting loses nothing: joining the parts with the separator gives the text back.
-/

namespace Sigil.Text

theorem length_dropWhile_le (p : Char → Bool) (s : List Char) :
    (s.dropWhile p).length ≤ s.length := (List.dropWhile_sublist p).length_le

/-- The parts between occurrences of `sep`; there is always at least one. -/
def fields (sep : Char) : List Char → List (List Char)
  | [] => [[]]
  | c :: r =>
    if c = sep then [] :: fields sep r
    else
      match fields sep r with
      | [] => [[c]]
      | f :: fs => (c :: f) :: fs

theorem fields_ne_nil (sep : Char) (s : List Char) : fields sep s ≠ [] := by
  cases s with
  | nil => simp [fields]
  | cons c r =>
    unfold fields
    split
    · simp
    · split <;> simp

/-- Parts written one after the other with `sep` between them. -/
def join (sep : List Char) : List (List Char) → List Char
  | [] => []
  | [f] => f
  | f :: g :: fs => f ++ sep ++ join sep (g :: fs)

theorem join_cons_cons (sep : List Char) (c : Char) (f : List Char) (fs : List (List Char)) :
    join sep ((c :: f) :: fs) = c :: join sep (f :: fs) := by
  cases fs <;> simp [join]

theorem join_fields (sep : Char) (s : List Char) : join [sep] (fields sep s) = s := by
  induction s with
  | nil => rfl
  | cons c r ih =>
    rw [fields]
    have hne := fields_ne_nil sep r
    split
    · rename_i h
      cases hf : fields sep r with
      | nil => exact absurd hf hne
      | cons f fs => rw [hf] at ih; subst h; simp [join, ih]
    · cases hf : fields sep r with
      | nil => exact absurd hf hne
      | cons f fs => rw [hf] at ih; simp [join_cons_cons, ih]

theorem sep_notMem_of_mem_fields {sep : Char} {s f : List Char} (h : f ∈ fields sep s) :
    sep ∉ f := by
  induction s generalizing f with
  | nil => simp [fields] at h; simp [h]
  | cons c r ih =>
    rw [fields] at h
    split at h
    · rcases List.mem_cons.1 h with rfl | h
      · simp
      · exact ih h
    · rename_i hc
      split at h
      · rename_i hf
        exact absurd hf (fields_ne_nil sep r)
      · rename_i g gs hf
        rcases List.mem_cons.1 h with rfl | h
        · have := ih (f := g) (by simp [hf])
          simp [this, Ne.symm hc]
        · exact ih (by simp [hf, h])

/-- The word at the start of the text, cut off; `none` if the text does not start with it. -/
def after? : (word text : List Char) → Option (List Char)
  | [], s => some s
  | _ :: _, [] => none
  | w :: ws, c :: s => if w = c then after? ws s else none

theorem after?_eq_some_iff {w s t : List Char} : after? w s = some t ↔ s = w ++ t := by
  induction w generalizing s with
  | nil => simp [after?, eq_comm]
  | cons a w ih =>
    cases s with
    | nil => simp [after?]
    | cons c s =>
      by_cases h : a = c
      · simp [after?, h, ih]
      · simp [after?, h, Ne.symm h]

theorem length_of_after? {w s t : List Char} (h : after? w s = some t) :
    s.length = w.length + t.length := by
  rw [after?_eq_some_iff.1 h, List.length_append]

def startsWith (text word : List Char) : Bool := (after? word text).isSome

theorem startsWith_iff_isPrefix {word s : List Char} : startsWith s word = true ↔ word <+: s := by
  rw [startsWith, Option.isSome_iff_exists]
  refine exists_congr fun t => ?_
  rw [after?_eq_some_iff]
  exact eq_comm

/-- The word at the end of the text, cut off; `none` if the text does not end with it. -/
def before? (word text : List Char) : Option (List Char) :=
  (after? word.reverse text.reverse).map List.reverse

theorem before?_eq_some_iff {w s t : List Char} : before? w s = some t ↔ s = t ++ w := by
  simp only [before?, Option.map_eq_some_iff, after?_eq_some_iff]
  constructor
  · rintro ⟨u, hu, rfl⟩
    rw [← List.reverse_reverse s, hu, List.reverse_append, List.reverse_reverse]
  · rintro rfl
    exact ⟨t.reverse, List.reverse_append, List.reverse_reverse t⟩

def endsWith (text word : List Char) : Bool := (before? word text).isSome

def contains (word : List Char) : List Char → Bool
  | [] => word.isEmpty
  | c :: r => startsWith (c :: r) word || contains word r

def cut? (word : List Char) : List Char → Option (List Char × List Char)
  | [] => if word.isEmpty then some ([], []) else none
  | c :: r =>
    match after? word (c :: r) with
    | some t => some ([], t)
    | none => (cut? word r).map fun (a, b) => (c :: a, b)

theorem eq_of_cut? {w s a b : List Char} (h : cut? w s = some (a, b)) : s = a ++ w ++ b := by
  induction s generalizing a b with
  | nil =>
    rw [cut?] at h
    split at h
    · simp_all
    · cases h
  | cons c r ih =>
    rw [cut?] at h
    split at h
    · rename_i t ht
      simp only [Option.some.injEq, Prod.mk.injEq] at h
      obtain ⟨rfl, rfl⟩ := h
      simpa using after?_eq_some_iff.1 ht
    · cases hc : cut? w r with
      | none => simp [hc] at h
      | some p =>
        obtain ⟨a', b'⟩ := p
        simp only [hc, Option.map_some, Option.some.injEq, Prod.mk.injEq] at h
        obtain ⟨rfl, rfl⟩ := h
        simp [ih hc]

theorem length_of_cut? {w s a b : List Char} (h : cut? w s = some (a, b)) :
    s.length = a.length + w.length + b.length := by
  rw [eq_of_cut? h, List.length_append, List.length_append]

/-- The parts between occurrences of a word that is not empty, found from left to right. -/
def pieces (word : List Char) (hw : word ≠ []) (s : List Char) : List (List Char) :=
  match _h : cut? word s with
  | none => [s]
  | some (a, b) => a :: pieces word hw b
termination_by s.length
decreasing_by
  have := length_of_cut? _h
  have : 0 < word.length := List.length_pos_iff.2 hw
  omega

theorem pieces_ne_nil (word : List Char) (hw : word ≠ []) (s : List Char) :
    pieces word hw s ≠ [] := by
  rw [pieces]
  split <;> simp

theorem join_cons {sep f : List Char} {fs : List (List Char)} (h : fs ≠ []) :
    join sep (f :: fs) = f ++ sep ++ join sep fs := by
  cases fs with
  | nil => exact absurd rfl h
  | cons g gs => rfl

theorem join_pieces (word : List Char) (hw : word ≠ []) (s : List Char) :
    join word (pieces word hw s) = s := by
  fun_induction pieces word hw s with
  | case1 s h => rfl
  | case2 s a b h ih => rw [join_cons (pieces_ne_nil word hw b), ih, ← eq_of_cut? h]

/-- Every occurrence of a word that is not empty replaced, found from left to right. -/
def replaceAll (word : List Char) (hw : word ≠ []) (by_ s : List Char) : List Char :=
  join by_ (pieces word hw s)

def dropReturn (s : List Char) : List Char := (before? ['\r'] s).getD s

/-- The lines of a text: cut at line feeds, a carriage return before one belongs to the line's end,
and what follows the last line feed is a line only if it is not empty. -/
def lines (s : List Char) : List (List Char) :=
  let fs := fields '\n' s
  let last := fs.getLast?.getD []
  fs.dropLast.map dropReturn ++ if last.isEmpty then [] else [last]

end Sigil.Text
