import Sigil.Proofs.Template.Move

/-!
# Zones of a template

Which part of a template a character belongs to, read from left to right one character at a time:
markup, the inside of a tag or a quoted value. `escapable` says of which texts every `@` is kept
when it is doubled. Zones that are not told apart by what follows lead on alike (`Zone.Alike`).
-/

namespace Sigil.Template

open Text Cursor

/-! ## Doubled texts -/

/-- A text with two `@`s for each one. -/
def doubled : List Char → List Char
  | [] => []
  | x :: r => if x = '@' then '@' :: '@' :: doubled r else x :: doubled r

theorem doubled_at (r : List Char) : doubled ('@' :: r) = '@' :: '@' :: doubled r := rfl

theorem doubled_cons {x : Char} (hx : x ≠ '@') (r : List Char) :
    doubled (x :: r) = x :: doubled r := by
  rw [doubled, if_neg hx]

theorem doubled_append {s : List Char} (hs : '@' ∉ s) (r : List Char) :
    doubled (s ++ r) = s ++ doubled r := by
  induction s with
  | nil => rfl
  | cons x s ih =>
    simp only [List.mem_cons, not_or] at hs
    rw [List.cons_append, doubled_cons (Ne.symm hs.1), ih hs.2, List.cons_append]

theorem length_le_doubled (r : List Char) : r.length ≤ (doubled r).length := by
  fun_induction doubled r with
  | case1 => exact Nat.le_refl _
  | case2 r ih =>
    simp only [List.length_cons]
    omega
  | case3 x r hx ih =>
    simp only [List.length_cons]
    omega

theorem doubled_eq_self_iff (r : List Char) : doubled r = r ↔ '@' ∉ r := by
  induction r with
  | nil => simp [doubled]
  | cons x r ih =>
    by_cases hx : x = '@'
    · subst hx
      have := length_le_doubled r
      refine ⟨fun h => ?_, fun h => absurd List.mem_cons_self h⟩
      have := congrArg List.length h
      simp only [doubled_at, List.length_cons] at this
      omega
    · rw [doubled_cons hx, List.cons.injEq, ih]
      simp [Ne.symm hx]

theorem head?_doubled (r : List Char) : (doubled r).head? = r.head? := by
  cases r with
  | nil => rfl
  | cons x r =>
    by_cases hx : x = '@'
    · simp [doubled, hx]
    · simp [doubled, hx]

/-- Behind text without an `@`, a doubled text is doubled. -/
theorem eq_doubled_of_append {s k r : List Char} (hs : '@' ∉ s) (h : doubled r = s ++ k) :
    ∃ r', r = s ++ r' ∧ k = doubled r' := by
  induction s generalizing r with
  | nil => exact ⟨r, rfl, h.symm⟩
  | cons x s ih =>
    simp only [List.mem_cons, not_or] at hs
    cases r with
    | nil => cases h
    | cons y r =>
      have hy : y = x := by
        have := congrArg List.head? h
        rw [head?_doubled] at this
        simpa using this
      subst hy
      rw [doubled_cons (Ne.symm hs.1), List.cons_append, List.cons.injEq] at h
      obtain ⟨r', hr, hk⟩ := ih hs.2 h.2
      exact ⟨r', by rw [hr, List.cons_append], hk⟩

/-! ## Zones -/

/-- What a character of a template belongs to. -/
inductive Zone where
  | markup
  /-- Behind a `<` of markup. -/
  | opening
  | tagName
  /-- Inside a tag, in front of an attribute. -/
  | tag
  | name
  /-- Blanks behind an attribute's name. -/
  | afterName
  /-- Behind an attribute's `=`, in front of its value. -/
  | beforeValue
  | value (quote : Char)
  deriving DecidableEq

namespace Zone

def inTag (x : Char) : Zone :=
  if isAsciiBlank x then tag
  else if x = '>' ∨ x = '@' then markup
  else if x = '<' then opening
  else if x = '/' ∨ x = '"' ∨ x = '\'' ∨ x = '=' then tag
  else name

/-- The zone behind a character that follows an attribute's name. -/
def pastName (x : Char) : Zone :=
  if isAsciiBlank x then afterName else if x = '=' then beforeValue else inTag x

def next : Zone → Char → Zone
  | markup, x => if x = '<' then opening else markup
  | opening, x => if x.isAlpha then tagName else if x = '<' then opening else markup
  | tagName, x => if isTagNamePart x then tagName else inTag x
  | tag, x => inTag x
  | name, x => if endsAttributeName x then pastName x else name
  | afterName, x => pastName x
  | beforeValue, x =>
    if isAsciiBlank x then beforeValue
    else if x = '"' ∨ x = '\'' then value x
    else inTag x
  | value quote, x => if x = quote then tag else value quote

def walk (z : Zone) (s : List Char) : Zone := s.foldl next z

theorem walk_append (z : Zone) (s t : List Char) : z.walk (s ++ t) = (z.walk s).walk t :=
  List.foldl_append

theorem walk_stay {z : Zone} {s : List Char} (h : ∀ x ∈ s, z.next x = z) : z.walk s = z := by
  induction s with
  | nil => rfl
  | cons x s ih =>
    rw [List.forall_mem_cons] at h
    exact (congrArg (walk · s) h.1).trans (ih h.2)

/-- Whether an `@` in front of `r` is kept when it is doubled: not behind a letter or digit, and
always in a value that is closed. -/
def allows (last : Option Char) (r : List Char) : Zone → Bool
  | value quote => r.contains quote
  | _ => !last.any Char.isAlphanum

end Zone

/-- Whether every `@` of a text that starts in a zone is kept when it is doubled. -/
def escapable (z : Zone) (last : Option Char) : List Char → Bool
  | [] => true
  | x :: r => (x != '@' || z.allows last r) && escapable (z.next x) (some x) r

section

variable {z z' : Zone} {last : Option Char} {x : Char} {s r : List Char}

theorem escapable_cons (hx : x ≠ '@') :
    escapable z last (x :: r) = escapable (z.next x) (some x) r := by
  rw [escapable, bne_iff_ne.2 hx, Bool.true_or, Bool.true_and]

/-- Two zones outside values agree on a text if they agree on its first character. -/
theorem escapable_congr (hz : ∀ q, z ≠ .value q) (hz' : ∀ q, z' ≠ .value q)
    (h : ∀ x ∈ r.head?, z.next x = z'.next x) : escapable z last r = escapable z' last r := by
  have hallows : ∀ {y : Zone} {l : Option Char} {k : List Char}, (∀ q, y ≠ .value q) →
      y.allows l k = !l.any Char.isAlphanum := by
    intro y l k hy
    cases y with
    | value q => exact absurd rfl (hy q)
    | _ => rfl
  cases r with
  | nil => rfl
  | cons x r => rw [escapable, escapable, hallows hz, hallows hz', h x rfl]

theorem escapable_append (hs : '@' ∉ s) :
    escapable z last (s ++ r) = escapable (z.walk s) (s.getLast?.or last) r := by
  induction s generalizing z last with
  | nil => rfl
  | cons x s ih =>
    simp only [List.mem_cons, not_or] at hs
    rw [List.cons_append, escapable_cons (Ne.symm hs.1), ih hs.2, List.getLast?_cons]
    cases s.getLast? <;> rfl

/-- In a value that is closed every `@` is kept. -/
theorem escapable_closed {q : Char} (hq : q ≠ '@') (hs : q ∉ s) :
    escapable (.value q) last (s ++ q :: r) = escapable .tag (some q) r := by
  induction s generalizing last with
  | nil => rw [List.nil_append, escapable_cons hq, Zone.next, if_pos rfl]
  | cons x s ih =>
    simp only [List.mem_cons, not_or] at hs
    have hnext : (Zone.value q).next x = .value q := if_neg (Ne.symm hs.1)
    have hall : (Zone.value q).allows last (s ++ q :: r) = true := by simp [Zone.allows]
    rw [List.cons_append, escapable, hall, Bool.or_true, Bool.true_and, hnext, ih hs.2]

/-- In a value that is not closed no `@` is kept. -/
theorem escapable_open {q : Char} (hr : q ∉ r) :
    escapable (.value q) last r = true ↔ '@' ∉ r := by
  induction r generalizing last with
  | nil => simp [escapable]
  | cons x r ih =>
    simp only [List.mem_cons, not_or] at hr
    have hnext : (Zone.value q).next x = .value q := if_neg (Ne.symm hr.1)
    have hall : (Zone.value q).allows last r = false := by simpa [Zone.allows] using hr.2
    rw [escapable, hall, Bool.or_false, hnext, Bool.and_eq_true, ih hr.2, bne_iff_ne,
      List.mem_cons, not_or]
    exact and_congr ne_comm Iff.rfl

end

/-! ## Zones that lead on alike -/

/-- Two zones are the same, or lie outside values and are not told apart by the first character of a
text behind its blanks. -/
inductive Zone.Alike : Zone → Zone → List Char → Prop where
  | refl {z : Zone} {r : List Char} : Alike z z r
  | head {z z' : Zone} {r : List Char} : (∀ q, z ≠ .value q) → (∀ q, z' ≠ .value q) →
      (∀ x ∈ r.head?, z.next x = z'.next x) → Alike z z' r
  | blank {z z' : Zone} {x : Char} {r : List Char} : (∀ q, z ≠ .value q) → (∀ q, z' ≠ .value q) →
      isAsciiBlank x = true → Alike (z.next x) (z'.next x) r → Alike z z' (x :: r)

namespace Zone.Alike

variable {z z' z'' : Zone} {s r k : List Char}

theorem trans (h : Alike z z' r) (h' : Alike z' z'' r) : Alike z z'' r := by
  induction h generalizing z'' with
  | refl => exact h'
  | head hz hz' hx =>
    cases h' with
    | refl => exact .head hz hz' hx
    | head _ hz'' hx' => exact .head hz hz'' fun x h => (hx x h).trans (hx' x h)
    | blank _ hz'' hblank h' => exact .blank hz hz'' hblank (hx _ rfl ▸ h')
  | blank hz hz' hblank h ih =>
    cases h' with
    | refl => exact .blank hz hz' hblank h
    | head _ hz'' hx' => exact .blank hz hz'' hblank (hx' _ rfl ▸ h)
    | blank _ hz'' _ h' => exact .blank hz hz'' hblank (ih h')

theorem walk (h : Alike z z' (s ++ r)) : Alike (z.walk s) (z'.walk s) r := by
  induction s generalizing z z' with
  | nil => exact h
  | cons x s ih =>
    refine ih ?_
    cases h with
    | refl => exact .refl
    | head _ _ hx =>
      rw [hx x rfl]
      exact .refl
    | blank _ _ _ h => exact h

/-- Two zones that lead on alike in front of a quote are the same behind it. -/
theorem walk_quote (h : Alike z z' (s ++ '"' :: k)) :
    z.walk (s ++ ['"']) = z'.walk (s ++ ['"']) := by
  have h := h.walk
  rw [walk_append, walk_append]
  generalize z.walk s = y at h ⊢
  generalize z'.walk s = y' at h ⊢
  cases h with
  | refl => rfl
  | head _ _ hx => exact hx '"' rfl
  | blank _ _ hblank => exact absurd hblank (by decide)

theorem escapable_eq {last : Option Char} (h : Alike z z' (doubled r)) :
    escapable z last r = escapable z' last r := by
  generalize hk : doubled r = k at h
  induction h generalizing r last with
  | refl => rfl
  | head hz hz' hx => exact escapable_congr hz hz' (by rwa [← head?_doubled, hk])
  | @blank z z' x k _ _ hblank _ ih =>
    have hx : x ≠ '@' := by
      rintro rfl
      exact absurd hblank (by decide)
    obtain ⟨r, rfl, rfl⟩ := eq_doubled_of_append (s := [x]) (by simpa using hx.symm) hk
    rw [List.singleton_append, escapable_cons hx, escapable_cons hx, ih rfl]

end Zone.Alike

end Sigil.Template
