import Sigil.Code.Program
import Sigil.Proofs.Template.Draft
import Sigil.Proofs.Text.Utf8

/-!
# Rendering literals

The calls for literals append their texts to the output, whatever the model, the data and the
encoder. A body of literals that give a text renders as the text (`execute_literals`).
-/

namespace Sigil.Render

open Text Template Code

theorem perform_literal {r : Rendering} (hr : r.error = none) (s : Scope) (text : String) :
    r.perform s (.literal (Utf8.encode text)) = { r with output := r.output ++ text } := by
  have hdecode : decodeText (Utf8.encode text) = .ok text := by
    rw [decodeText, Utf8.decode_encode]
  have hattempt : r.attempt s (.literal (Utf8.encode text)) = .ok (r.literal text) := by
    rw [Rendering.attempt, hdecode]
    rfl
  rw [Rendering.perform, if_neg (by simp [Rendering.hasFailed, hr]), hattempt]
  simp only [Rendering.literal, hr]

theorem hostCalls_literal (text : String) (position : Nat) (body : List Statement) :
    hostCalls (.literal text position :: body) = .literal (Utf8.encode text) :: hostCalls body :=
  rfl

theorem run_literals {body : List Statement} (hb : ∀ x ∈ body, x.literal?.isSome = true)
    {r : Rendering} (hr : r.error = none) (s : Scope) :
    r.run s (hostCalls body) = { r with output := r.output ++ String.ofList (written body) } := by
  induction body generalizing r with
  | nil =>
    have hnil : String.ofList (written []) = "" := rfl
    rw [hnil, String.append_empty]
    rfl
  | cons x body ih =>
    have hx := hb x List.mem_cons_self
    cases x with
    | literal text position =>
      have hw : String.ofList (written (.literal text position :: body)) =
          text ++ String.ofList (written body) := by
        simp [written, Statement.literal?, String.ofList_append]
      rw [hostCalls_literal, Rendering.run, List.foldl_cons, perform_literal hr]
      have := ih (fun y hy => hb y (List.mem_cons_of_mem _ hy))
        (r := { r with output := r.output ++ text }) hr
      rw [Rendering.run] at this
      rw [this, hw, String.append_assoc]
    | _ => cases hx

theorem execute_literals {body : List Statement} {t : List Char} (h : WritesText body t)
    (s : Scope) :
    (⟨abiVersion, hostCalls body⟩ : Program).execute abiVersion s = .ok (String.ofList t) := by
  rw [Program.execute, if_pos rfl, run_literals h.1 rfl, h.2]
  exact congrArg Except.ok String.empty_append

end Sigil.Render
