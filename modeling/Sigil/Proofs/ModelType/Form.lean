import Sigil.Proofs.ModelType.Nesting

/-!
# Forms of a text

`Spelled s f` lists which texts have which form; it holds of every text and the form that is read
from it (`spelled_form`). `read_eq` says what type a form stands for, and `induction_on` that a
property of all texts may be assumed of the parts of a form.
-/

namespace Sigil.ModelType

open Text

def dynamicWord : List Char := ['d', 'y', 'n', 'a', 'm', 'i', 'c']

def mutableWord : List Char := ['m', 'u', 't', ' ']

/-! ## Texts of a form -/

/-- The texts that have a form; a path may be any text. -/
inductive Spelled : List Char → Form → Prop where
  | dynamic : Spelled dynamicWord .dynamic
  | mutable {b u : List Char} : IsBlankText b →
      Spelled ('&' :: (b ++ (mutableWord ++ u))) (.reference true u)
  | shared {b u : List Char} : IsBlankText b → (∀ c ∈ u.head?, isBlank c = false) →
      after? mutableWord u = none → Spelled ('&' :: (b ++ u)) (.reference false u)
  | array {e l : List Char} : parts ';' (e ++ ';' :: l) = [e, l] →
      Spelled ('[' :: (e ++ ';' :: l ++ [']'])) (.array e (trim l))
  | slice {e : List Char} : (parts ';' e).length ≠ 2 → Spelled ('[' :: (e ++ [']'])) (.slice e)
  | tuple {m : List Char} : Spelled ('(' :: (m ++ [')'])) (.tuple (members m))
  | generic {p a : List Char} : (∀ r, openAngle? 0 (p ++ '<' :: r) = some (p, r)) →
      p.head? ≠ some '&' → Spelled (p ++ '<' :: (a ++ ['>'])) (.path p (members a))
  | path {s : List Char} : Spelled s (.path s [])

theorem between?_eq_some_iff {a b : Char} {s t : List Char} :
    between? a b s = some t ↔ s = a :: (t ++ [b]) := by
  simp only [between?, Option.bind_eq_some_iff, after?_eq_some_iff, before?_eq_some_iff]
  constructor
  · rintro ⟨u, rfl, rfl⟩
    rfl
  · rintro rfl
    exact ⟨t ++ [b], rfl, rfl⟩

theorem openAngle?_cases {d : Int} {s p a : List Char} (h : openAngle? d s = some (p, a)) :
    s = p ++ '<' :: a ∧ ∀ r, openAngle? d (p ++ '<' :: r) = some (p, r) := by
  induction s generalizing d p a with
  | nil => cases h
  | cons c s ih =>
    rw [openAngle?] at h
    split at h
    · rename_i hc
      cases h
      rw [hc.1, hc.2]
      exact ⟨rfl, fun r => rfl⟩
    · rename_i hc
      obtain ⟨⟨q, b⟩, hq, he⟩ := Option.map_eq_some_iff.1 h
      cases he
      obtain ⟨rfl, hall⟩ := ih hq
      refine ⟨rfl, fun r => ?_⟩
      rw [List.cons_append, openAngle?, if_neg hc, hall, Option.map_some]

theorem parts_of_two {s e l : List Char} (h : parts ';' s = [e, l]) : s = e ++ ';' :: l := by
  have hcuts : Cuts ';' s (parts ';' s) := cuts_parts s
  rw [h] at hcuts
  cases hcuts with
  | cons _ _ hr =>
    cases hr with
    | last => rfl
    | cons _ _ hn => exact absurd rfl hn.ne_nil

theorem spelled_bracketForm (e : List Char) :
    Spelled ('[' :: (e ++ [']'])) (bracketForm e) := by
  unfold bracketForm
  split
  · rename_i x l hp
    obtain rfl := parts_of_two hp
    exact .array hp
  · rename_i hp
    refine .slice fun hlen => ?_
    obtain ⟨x, l, hxl⟩ := List.length_eq_two.1 hlen
    exact hp x l hxl

theorem spelled_referenceForm (r : List Char) : Spelled ('&' :: r) (referenceForm r) := by
  obtain ⟨b, hb, hr⟩ := exists_trimStart r
  unfold referenceForm
  simp only
  split
  · rename_i u hu
    rw [after?_eq_some_iff] at hu
    rw [hu] at hr
    rw [hr]
    exact .mutable hb
  · rename_i hu
    have := Spelled.shared hb (head?_trimStart r) hu
    rwa [← hr] at this

theorem spelled_pathForm {s : List Char} (hs : s.head? ≠ some '&') : Spelled s (pathForm s) := by
  unfold pathForm
  split
  · rename_i p args ho
    obtain ⟨rfl, hall⟩ := openAngle?_cases ho
    split
    · rename_i a ha
      obtain rfl := before?_eq_some_iff.1 ha
      refine .generic hall fun hp => hs ?_
      rw [List.head?_append, hp]
      rfl
    · exact .path
  · exact .path

theorem spelled_form (s : List Char) : Spelled s (form s) := by
  unfold form
  split
  · rename_i hs
    rw [hs]
    exact .dynamic
  · split
    · rename_i r hr
      rw [after?_eq_some_iff.1 hr]
      exact spelled_referenceForm r
    · rename_i hamp
      split
      · rename_i e he
        rw [between?_eq_some_iff.1 he]
        exact spelled_bracketForm e
      · split
        · rename_i m hm
          rw [between?_eq_some_iff.1 hm]
          exact .tuple
        · refine spelled_pathForm fun hs => ?_
          obtain ⟨r, rfl⟩ := List.head?_eq_some_iff.1 hs
          simp [after?] at hamp

/-! ## Forms of printed texts -/

theorem form_amp (r : List Char) : form ('&' :: r) = referenceForm r := by
  rw [form, if_neg (by simp)]
  rfl

theorem form_bracket (e : List Char) : form ('[' :: (e ++ [']'])) = bracketForm e := by
  rw [form, if_neg (by simp), between?_eq_some_iff.2 rfl]
  rfl

theorem form_paren (m : List Char) : form ('(' :: (m ++ [')'])) = .tuple (members m) := by
  have hb : between? '[' ']' ('(' :: (m ++ [')'])) = none := rfl
  rw [form, if_neg (by simp), hb, between?_eq_some_iff.2 rfl]
  rfl

theorem between?_of_getLast? {a b : Char} {s : List Char} (h : s.getLast? ≠ some b) :
    between? a b s = none := by
  rw [Option.eq_none_iff_forall_ne_some]
  intro t ht
  rw [between?_eq_some_iff.1 ht, ← List.cons_append, List.getLast?_concat] at h
  exact h rfl

theorem form_generic {p : List Char} (hp : ∀ r, openAngle? 0 (p ++ '<' :: r) = some (p, r))
    (hamp : p.head? ≠ some '&') (a : List Char) :
    form (p ++ '<' :: (a ++ ['>'])) = .path p (members a) := by
  have hlast : (p ++ '<' :: (a ++ ['>'])).getLast? = some '>' := by
    rw [← List.cons_append, ← List.append_assoc, List.getLast?_concat]
  have hword : p ++ '<' :: (a ++ ['>']) ≠ dynamicWord := by
    intro h
    rw [h] at hlast
    cases hlast
  have hnone : after? ['&'] (p ++ '<' :: (a ++ ['>'])) = none := by
    rw [Option.eq_none_iff_forall_ne_some]
    intro t ht
    rw [after?_eq_some_iff] at ht
    cases p with
    | nil => cases ht
    | cons c p =>
      cases ht
      exact hamp rfl
  have hbracket := between?_of_getLast? (a := '[') (show _ ≠ some ']' by rw [hlast]; simp)
  have hparen := between?_of_getLast? (a := '(') (show _ ≠ some ')' by rw [hlast]; simp)
  simp only [form, hnone, hbracket, hparen, pathForm, hp, before?_eq_some_iff.2 rfl]
  exact if_neg hword

/-! ## Types of forms -/

/-- The type that a form of a text stands for. -/
def Form.type (text : List Char) : Form → ModelType
  | .dynamic => .dynamic
  | .reference m t => .reference m (read t)
  | .array e l => .array (read e) (String.ofList l)
  | .slice e => .slice (read e)
  | .tuple ms => .tuple (ms.map read)
  | .path p args =>
    if isAnonymousPath p then .anonymous (String.ofList text)
    else .named (String.ofList p) (args.map read)

theorem read_eq (s : List Char) : read s = (form (trim s)).type (trim s) := by
  rw [read]
  split <;> simp_all [Form.type]

theorem read_trim (s : List Char) : read (trim s) = read s := by
  rw [read_eq, trim_trim, ← read_eq]

theorem read_append {b : List Char} (hb : IsBlankText b) (s : List Char) :
    read (b ++ s) = read s := by
  rw [← read_trim, trim_append hb, read_trim]

/-- Of a text that may be assumed which is assumed of the parts of its form. -/
theorem induction_on {P : List Char → Prop}
    (h : ∀ s, (∀ m ∈ (form (trim s)).inner, P m) → P s) (s : List Char) : P s := by
  generalize hlen : s.length = n
  induction n using Nat.strongRecOn generalizing s with
  | ind n ih =>
    refine h s fun m hm => ih m.length ?_ m rfl
    rw [← hlen]
    exact length_lt_of_mem_inner rfl hm

end Sigil.ModelType
