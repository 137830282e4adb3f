import Mathlib.Algebra.BigOperators.Group.List.Basic
import Mathlib.Algebra.Ring.Int.Defs
import Mathlib.Algebra.Ring.Nat
import Mathlib.Data.List.Basic
import Mathlib.Tactic.ByContra
import Sigil.ModelType.Reader
import Sigil.Proofs.Text.Trim

/-!
# Depths in the text of a type

How deep the characters of a text stand in brackets: `nest` is how much deeper the whole text leads,
and `depths` lists how deep each separator stands. `Cuts` says what cutting a text at the separators
of depth zero gives, and `cuts_parts` that `parts` does so. In front of a separator outside all
brackets every part leads no deeper than it starts.
-/

namespace Sigil.ModelType

open Text

/-! ## How much deeper a text leads -/

/-- How much deeper a text leads into brackets. -/
def nest (s : List Char) : Int := (s.map nestingAngled).sum

@[simp] theorem nest_nil : nest [] = 0 := rfl

@[simp] theorem nest_cons (c : Char) (s : List Char) :
    nest (c :: s) = nestingAngled c + nest s := by
  simp [nest]

@[simp] theorem nest_append (s t : List Char) : nest (s ++ t) = nest s + nest t := by
  simp [nest]

/-- How deep each separator of a text stands that starts at a depth. -/
def depths (sep : Char) (depth : Int) : List Char → List Int
  | [] => []
  | c :: r => (if c = sep then [depth] else []) ++ depths sep (depth + nestingAngled c) r

@[simp] theorem depths_nil (sep : Char) (d : Int) : depths sep d [] = [] := rfl

@[simp] theorem depths_cons (sep : Char) (d : Int) (c : Char) (r : List Char) :
    depths sep d (c :: r) =
      (if c = sep then [d] else []) ++ depths sep (d + nestingAngled c) r := rfl

@[simp] theorem depths_append (sep : Char) (d : Int) (s t : List Char) :
    depths sep d (s ++ t) = depths sep d s ++ depths sep (d + nest s) t := by
  induction s generalizing d with
  | nil => simp
  | cons c s ih => simp [ih, Int.add_assoc]

/-- A separator outside the brackets is the first character or stands in the rest. -/
theorem zero_mem_depths_cons {sep c : Char} {d : Int} {r : List Char} :
    0 ∈ depths sep d (c :: r) ↔ (c = sep ∧ d = 0) ∨ 0 ∈ depths sep (d + nestingAngled c) r := by
  rw [depths_cons, List.mem_append]
  refine or_congr_left ?_
  by_cases hc : c = sep <;> simp [hc, eq_comm]

/-- Blanks and commas: what may be put in or left out between the parts of a type. -/
def isIdle (c : Char) : Bool := isBlank c || c == ','

@[simp] theorem isIdle_blank : isIdle ' ' = true := by decide

@[simp] theorem isIdle_comma : isIdle ',' = true := by decide

theorem nestingAngled_of_isIdle {c : Char} (h : isIdle c = true) : nestingAngled c = 0 := by
  by_contra hn
  have : c ∈ ['(', '[', '{', '<', ')', ']', '}', '>'] := by
    by_contra hc
    simp only [List.mem_cons, List.not_mem_nil, or_false, not_or] at hc
    exact hn (by simp [nestingAngled, nesting, hc])
  have hall : ['(', '[', '{', '<', ')', ']', '}', '>'].all (!isIdle ·) = true := by decide
  have hidle := List.all_eq_true.1 hall c this
  rw [h] at hidle
  cases hidle

theorem nest_of_isIdle {s : List Char} (h : ∀ c ∈ s, isIdle c = true) : nest s = 0 := by
  induction s with
  | nil => rfl
  | cons c s ih =>
    rw [List.forall_mem_cons] at h
    rw [nest_cons, nestingAngled_of_isIdle h.1, ih h.2, Int.zero_add]

theorem depths_of_notMem {sep : Char} {s : List Char} (h : sep ∉ s) (d : Int) :
    depths sep d s = [] := by
  induction s generalizing d with
  | nil => rfl
  | cons c s ih =>
    simp only [List.mem_cons, not_or] at h
    rw [depths_cons, if_neg (Ne.symm h.1), ih h.2, List.append_nil]

theorem depths_of_isBlankText {sep : Char} (hsep : isBlank sep = false) {s : List Char}
    (h : IsBlankText s) (d : Int) : depths sep d s = [] :=
  depths_of_notMem (fun hs => by simp [h sep hs] at hsep) d

theorem isIdle_of_isBlankText {s : List Char} (h : IsBlankText s) : ∀ c ∈ s, isIdle c = true :=
  fun c hc => by rw [isIdle, h c hc, Bool.true_or]

/-! ## Cutting outside brackets -/

/-- No separator stands outside the brackets. -/
def Uncut (sep : Char) (s : List Char) : Prop := 0 ∉ depths sep 0 s

/-- A text cut at the separators outside its brackets. -/
inductive Cuts (sep : Char) : List Char → List (List Char) → Prop where
  | last {s : List Char} : Uncut sep s → Cuts sep s [s]
  | cons {s r : List Char} {ps : List (List Char)} : Uncut sep s → nest s = 0 →
      Cuts sep r ps → Cuts sep (s ++ sep :: r) (s :: ps)

section

variable {sep : Char} {s r m : List Char} {ps : List (List Char)}

theorem partsFrom_append {d : Int} (hs : 0 ∉ depths sep d s) (hn : d + nest s = 0)
    (r : List Char) :
    partsFrom sep d (s ++ sep :: r) = s :: parts sep r := by
  induction s generalizing d with
  | nil =>
    rw [nest_nil, Int.add_zero] at hn
    rw [List.nil_append, partsFrom, if_pos ⟨rfl, hn⟩, parts]
  | cons c s ih =>
    rw [zero_mem_depths_cons, not_or] at hs
    rw [nest_cons, ← Int.add_assoc] at hn
    rw [List.cons_append, partsFrom, if_neg hs.1, ih hs.2 hn]

theorem partsFrom_uncut {d : Int} (hs : 0 ∉ depths sep d s) : partsFrom sep d s = [s] := by
  induction s generalizing d with
  | nil => rfl
  | cons c s ih =>
    rw [zero_mem_depths_cons, not_or] at hs
    rw [partsFrom, if_neg hs.1, ih hs.2]

theorem Cuts.parts_eq (h : Cuts sep s ps) : parts sep s = ps := by
  induction h with
  | last hs => exact partsFrom_uncut hs
  | cons hs hn _ ih => rw [parts, partsFrom_append hs (by rw [hn]; rfl), ih]

/-- The text up to the first separator outside the brackets. -/
theorem exists_cut (sep : Char) (d : Int) (s : List Char) (h : 0 ∈ depths sep d s) :
    ∃ a r, s = a ++ sep :: r ∧ 0 ∉ depths sep d a ∧ d + nest a = 0 := by
  induction s generalizing d with
  | nil => cases h
  | cons c s ih =>
    by_cases hc : c = sep ∧ d = 0
    · obtain ⟨rfl, rfl⟩ := hc
      exact ⟨[], s, rfl, by simp, by simp⟩
    · obtain ⟨a, r, rfl, ha, hn⟩ := ih _ ((zero_mem_depths_cons.1 h).resolve_left hc)
      refine ⟨c :: a, r, rfl, ?_, ?_⟩
      · rw [zero_mem_depths_cons, not_or]
        exact ⟨hc, ha⟩
      · rw [nest_cons, ← Int.add_assoc, hn]

theorem cuts_parts (s : List Char) : Cuts sep s (parts sep s) := by
  generalize hlen : s.length = n
  induction n using Nat.strongRecOn generalizing s with
  | ind n ih =>
    by_cases h : 0 ∈ depths sep 0 s
    · obtain ⟨a, r, rfl, ha, hn⟩ := exists_cut sep 0 s h
      have hr := ih r.length (by simp at hlen; omega) r rfl
      rw [Int.zero_add] at hn
      rw [parts, partsFrom_append ha (by rw [hn]; rfl)]
      exact .cons ha hn hr
    · rw [parts, partsFrom_uncut h]
      exact .last h

theorem Cuts.uncut (h : Cuts sep s ps) : ∀ m ∈ ps, Uncut sep m := by
  induction h with
  | last hs => simpa using hs
  | cons hs _ _ ih => exact List.forall_mem_cons.2 ⟨hs, ih⟩

theorem Cuts.ne_nil (h : Cuts sep s ps) : ps ≠ [] := by
  cases h <;> simp

/-- In front of another a part leads no deeper, also where some are left out. -/
theorem Cuts.nest_dropLast (h : Cuts sep s ps) (keep : List Char → Bool) :
    ∀ m ∈ (ps.filter keep).dropLast, nest m = 0 := by
  induction h with
  | @last s _ => cases hs : keep s <;> simp [hs]
  | @cons s r ps _ hn _ ih =>
    cases hs : keep s with
    | false => simpa [hs] using ih
    | true =>
      rw [List.filter_cons_of_pos hs]
      cases hf : ps.filter keep with
      | nil => simp
      | cons m ms =>
        rw [List.dropLast_cons_of_ne_nil (by simp), ← hf]
        exact List.forall_mem_cons.2 ⟨hn, ih⟩

theorem Cuts.length_eq (hsep : nestingAngled sep = 0) (h : Cuts sep s ps) :
    ps.length = (depths sep 0 s).count 0 + 1 := by
  induction h with
  | last hs => rw [List.count_eq_zero_of_not_mem hs, List.length_singleton]
  | @cons s r ps hs hn _ ih =>
    rw [List.length_cons, ih, depths_append, hn, depths_cons, if_pos rfl, hsep,
      List.count_append, List.count_append, List.count_eq_zero_of_not_mem hs]
    simp
    omega

end

theorem nest_members {s : List Char} : ∀ m ∈ (members s).dropLast, nest m = 0 :=
  (cuts_parts s).nest_dropLast _

theorem uncut_append_blank {b s : List Char} (hb : IsBlankText b) :
    Uncut ',' (b ++ s) ↔ Uncut ',' s := by
  rw [Uncut, depths_append, depths_of_isBlankText (by decide) hb,
    nest_of_isIdle (isIdle_of_isBlankText hb), List.nil_append, Int.add_zero, Uncut]

end Sigil.ModelType
