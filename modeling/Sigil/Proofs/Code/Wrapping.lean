import Sigil.Proofs.Code.Meaning
import Sigil.Proofs.Render.Markup

/-!
# Wrapped expressions

Only the outermost of several wrappers counts. So an expression that is encoded somewhere is written
without markup exactly when it is encoded outermost or its text holds no markup anyway
(`finish_write_markupFree_iff`): an encoded expression inside a raw one is written as it is
(`raw_undoes_encode`).
-/

namespace Sigil.Template

/-- Whether one of the wrappers of an expression encodes it. -/
def Expr.encodes : Expr → Bool
  | .encode _ => true
  | .raw e => e.encodes
  | _ => false

theorem Expr.mode_of_encodes {e : Expr} (h : e.encodes = true) :
    e.mode = .raw ∨ e.mode = .encode := by
  cases e with
  | raw e => exact .inl rfl
  | encode e => exact .inr rfl
  | _ => cases h

end Sigil.Template

namespace Sigil.Code

open Template Render

theorem exists_argument (e : Expr) (position : Nat) :
    ∃ a : Argument, hostCalls [.write e position] = [Render.Call.write a] ∧
      a.decode = .ok (e.operand, e.mode) :=
  ⟨_, rfl, decode_hoist (List.prefix_refl _)⟩

theorem finish_write (e : Expr) (position : Nat) (s : Scope) :
    (Rendering.run {} s (hostCalls [.write e position])).finish =
      s.evaluate e.operand e.mode >>= Value.written s.encoder := by
  obtain ⟨a, hcalls, ha⟩ := exists_argument e position
  rw [hcalls, ← Render.Call.outcome_write ha, ← Render.Call.alone_eq_outcome]
  rfl

/-- An expression that one of its wrappers encodes is written without markup exactly when the
outermost wrapper encodes it or there is no markup in its text. -/
theorem finish_write_markupFree_iff {e : Expr} (he : e.encodes = true) {position : Nat} {s : Scope}
    {t : String} (h : (Rendering.run {} s (hostCalls [.write e position])).finish = .ok t) :
    MarkupFree t ↔
      e.mode = .encode ∨ ∃ v, s.value e.operand = .ok v ∧ MarkupFree v.display := by
  rw [finish_write] at h
  obtain ⟨w, hw, ht⟩ := eq_ok_of_bind h
  obtain ⟨j, hv, rfl⟩ := evaluate_eq_ok hw
  have hwrites := writes_of_written ht
  rcases Expr.mode_of_encodes he with hm | hm
  · rw [hm] at hwrites ⊢
    have htext : t = (Value.json j).display := hwrites.eq_getD
    rw [htext, hv]
    constructor
    · intro hfree
      exact .inr ⟨_, rfl, hfree⟩
    · rintro (h | ⟨v, hv, hfree⟩)
      · cases h
      · cases hv
        exact hfree
  · exact iff_of_true (hwrites.markupFree (.inl hm)) (.inl hm)

theorem encode_around_raw_markupFree :
    let e : Expr := .encode (.raw (.path "a"))
    let s : Scope := ⟨.obj [("a", .str "<")], ∅, .raw⟩
    (e.encodes = true ∧ (Rendering.run {} s (hostCalls [.write e 0])).finish = .ok "&lt;") ∧
      (MarkupFree "&lt;" ↔
        e.mode = .encode ∨ ∃ v, s.value e.operand = .ok v ∧ MarkupFree v.display) := by
  intro e s
  have he : e.encodes = true := rfl
  have hrun : (Rendering.run {} s (hostCalls [.write e 0])).finish = .ok "&lt;" := by
    rw [finish_write]
    rfl
  exact ⟨⟨he, hrun⟩, finish_write_markupFree_iff he hrun⟩

/-- Markup that is to be encoded is written as it is when a raw wrapper stands around. -/
theorem raw_undoes_encode :
    ¬ ∀ (e : Expr) (position : Nat) (s : Scope) (t : String), e.encodes = true →
      (Rendering.run {} s (hostCalls [.write e position])).finish = .ok t → MarkupFree t := by
  intro h
  have hrun : (Rendering.run {} ⟨.null, ∅, .html⟩
      (hostCalls [.write (.raw (.encode (.str "<b>"))) 0])).finish = .ok "<b>" := by
    rw [finish_write]
    rfl
  exact absurd (h _ _ _ _ rfl hrun) (by decide)

end Sigil.Code
