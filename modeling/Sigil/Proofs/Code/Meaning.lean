import Mathlib.Data.List.Forall2
import Sigil.Proofs.Code.BaseFunction
import Sigil.Proofs.Code.CallReader
import Sigil.Proofs.Render.Outcome
import Sigil.Proofs.Text.Utf8

/-!
# What calls of generated code mean

The functions of the base source make the calls to the host, and a host reads from these the
contents of the statements that they were written for: one call for every statement that writes, in
their order (`hostCalls_conveys`). The calls are those that the lines of the body are read as. An
expression becomes an operand and a mode; of several wrappers the outermost gives the mode. URLs
that have been bound to locals arrive where they stand.
-/

namespace Sigil.Template

open Text Render

/-- What is evaluated for an expression: a URL is read from the root of the application, which its
first `~` stands for. -/
def Expr.operand : Expr → Operand
  | .path p => .path p
  | .str s => .str s
  | .number s => .number s
  | .bool b => .bool b
  | .null => .null
  | .raw e => e.operand
  | .encode e => e.operand
  | .url p =>
    match p.toList with
    | '~' :: r => .str (String.ofList r)
    | _ => .str p

/-- The mode that the outermost wrapper asks for. -/
def Expr.mode : Expr → Mode
  | .raw _ => .raw
  | .encode _ => .encode
  | _ => .plain

/-- An argument from which a host reads a part of an attribute's value. -/
inductive Fragment.Conveys : Fragment → FragmentArgument → Prop where
  | literal {lead value : Placed} {f : FragmentArgument} (hl : f.literal = true)
      (hlead : decodeText f.lead = .ok lead.text) (hi : f.leadPosition = lead.position)
      (hv : decodeText f.value.text = .ok value.text) (hj : f.position = value.position) :
      Conveys (.literal lead value) f
  | dynamic {lead : Placed} {e : Expr} {position : Nat} {f : FragmentArgument}
      (hl : f.literal = false) (hlead : decodeText f.lead = .ok lead.text)
      (hi : f.leadPosition = lead.position) (hv : f.value.decode = .ok (e.operand, e.mode))
      (hj : f.position = position) : Conveys (.dynamic lead e position) f

/-- A call from which a host reads what a statement writes. -/
inductive Statement.Conveys : Statement → Call → Prop where
  | literal {text : String} {position : Nat} {bytes : List UInt8}
      (h : decodeText bytes = .ok text) : Conveys (.literal text position) (.literal bytes)
  | write {e : Expr} {position : Nat} {a : Argument} (h : a.decode = .ok (e.operand, e.mode)) :
      Conveys (.write e position) (.write a)
  | attributeWrite {w : AttributeWrite} {name opening closing : List UInt8}
      {fragments : List FragmentArgument} (hname : decodeText name = .ok w.name)
      (hopening : decodeText opening = .ok w.opening.text)
      (hclosing : decodeText closing = .ok w.closing.text)
      (hfragments : List.Forall₂ Fragment.Conveys w.fragments fragments) :
      Conveys (.attribute w)
        (.attribute name opening w.opening.position closing w.closing.position fragments)

end Sigil.Template

namespace Sigil.Code

open Template Text Render

theorem decodeText_encode (text : String) : decodeText (Utf8.encode text) = .ok text := by
  rw [decodeText, Utf8.decode_encode]

/-! ## Arguments -/

theorem decode_eq_ok_iff {a : Argument} {o : Operand} {m : Mode} :
    a.decode = .ok (o, m) ↔ ∃ text, decodeText a.text = .ok text ∧
      Operand.ofKind? a.kind text = some o ∧ Mode.ofNumber? a.mode = some m := by
  constructor
  · intro h
    obtain ⟨text, htext, h⟩ := eq_ok_of_bind h
    split at h
    · cases h
    · rename_i p hp
      split at h
      · cases h
      · rename_i n hn
        cases h
        exact ⟨text, htext, hp, hn⟩
  · rintro ⟨text, htext, ho, hm⟩
    simp only [Argument.decode, htext, ho, hm, bind, Except.bind]

/-- An argument with another mode set asks for the same operand. -/
theorem decode_withMode {a : Argument} {o : Operand} {m m' : Mode} {mode : Nat}
    (h : a.decode = .ok (o, m)) (hm : Mode.ofNumber? mode = some m') :
    { a with mode := mode }.decode = .ok (o, m') := by
  obtain ⟨text, htext, ho, -⟩ := decode_eq_ok_iff.1 h
  exact decode_eq_ok_iff.2 ⟨text, htext, ho, hm⟩

theorem decode_plain {kind : Nat} {text : String} {o : Operand}
    (ho : Operand.ofKind? kind text = some o) :
    (⟨kind, 0, Utf8.encode text⟩ : Argument).decode = .ok (o, .plain) :=
  decode_eq_ok_iff.2 ⟨text, decodeText_encode text, ho, rfl⟩

theorem operand_url (p : String) : (Expr.url p).operand = .str (resolveUrl p) := by
  rw [Expr.operand, resolveUrl]
  split
  · rename_i r h
    rw [h, after?, if_pos rfl, after?, Option.getD_some]
  · rename_i h
    have hnone : after? ['~'] p.toList = none := by
      cases hp : p.toList with
      | nil => rfl
      | cons c r =>
        have hc : ¬ '~' = c := by
          rintro rfl
          exact h r hp
        rw [after?, if_neg hc]
    rw [hnone, Option.getD_none, String.ofList_toList]

/-- The argument for an expression, among whose locals from number `k` on are its URLs. -/
theorem decode_hoist {e : Expr} {k : Nat} {urls : List String}
    (h : (hoist k e).2.map resolveUrl <+: urls.drop k) :
    ((hoist k e).1.argument urls).decode = .ok (e.operand, e.mode) := by
  induction e with
  | path p => exact decode_plain rfl
  | str s => exact decode_plain rfl
  | number s => exact decode_plain rfl
  | bool b => cases b <;> rfl
  | null => rfl
  | raw e ih => exact decode_withMode (ih h) rfl
  | encode e ih => exact decode_withMode (ih h) rfl
  | url p =>
    obtain ⟨rest, h⟩ := h
    have hget : urls[k]? = some (resolveUrl p) := by
      rw [← Nat.add_zero k, ← List.getElem?_drop, ← h]
      rfl
    have hlocal : urls.getD k "" = resolveUrl p := by
      rw [List.getD_eq_getElem?_getD, hget, Option.getD_some]
    rw [operand_url]
    show (⟨1, 0, Utf8.encode (urls.getD k "")⟩ : Argument).decode = _
    rw [hlocal]
    exact decode_plain rfl

/-! ## Calls -/

/-- The parts of an attribute, among whose locals from number `k` on are their URLs. -/
theorem conveys_hoistAll {fs : List Fragment} {k : Nat} {urls : List String}
    (h : (hoistAll k fs).2.map resolveUrl <+: urls.drop k) :
    List.Forall₂ Fragment.Conveys fs ((hoistAll k fs).1.map (Part.fragment urls)) := by
  induction fs generalizing k with
  | nil => exact .nil
  | cons f fs ih =>
    cases f with
    | literal lead value =>
      exact .cons (.literal rfl (decodeText_encode _) rfl (decodeText_encode _) rfl) (ih h)
    | dynamic lead e position =>
      rw [hoistAll] at h ⊢
      rw [List.map_append] at h
      refine .cons (.dynamic rfl (decodeText_encode _) rfl ?_ rfl) (ih ?_)
      · exact decode_hoist ((List.prefix_append _ _).trans h)
      · obtain ⟨rest, h⟩ := h
        rw [List.append_assoc] at h
        refine ⟨rest, ?_⟩
        rw [← List.drop_drop, ← h, List.drop_append_of_le_length (by simp)]
        simp

theorem exists_step {x : Statement} (hp : x.isPragma = false) (hs : x.isSnippet = false) :
    ∃ step, Step.ofStatement? x = some step ∧ x.Conveys step.hostCall := by
  match x with
  | .literal text position => exact ⟨_, rfl, .literal (decodeText_encode text)⟩
  | .write e position =>
    refine ⟨_, rfl, .write (decode_hoist ?_)⟩
    exact List.prefix_refl _
  | .attribute w =>
    refine ⟨_, rfl, .attributeWrite (decodeText_encode _) (decodeText_encode _)
      (decodeText_encode _) (conveys_hoistAll ?_)⟩
    exact List.prefix_refl _
  | .pragma _ => cases hp
  | .snippet _ => cases hs

theorem hostCalls_cons_pragma {x : Statement} (h : x.isPragma = true) (body : List Statement) :
    hostCalls (x :: body) = hostCalls body := by
  cases x with
  | pragma p => rfl
  | _ => cases h

theorem hostCalls_cons {x : Statement} {step : Step} (h : Step.ofStatement? x = some step)
    (body : List Statement) : hostCalls (x :: body) = step.hostCall :: hostCalls body := by
  rw [hostCalls, List.filterMap_cons_some h, List.map_cons, hostCalls]

/-- The lines of a body are read back as its calls. Executed with the functions of the base source,
these make one call for every statement that writes, in their order, and each call conveys its
statement. -/
theorem hostCalls_conveys {body : List Statement} (h : ∀ x ∈ body, x.isSnippet = false) :
    (∀ n, MethodWords n → readSteps? n .outside (bodyLines n body) =
      some (body.filterMap Step.ofStatement?)) ∧
    (body.filterMap Step.ofStatement?).mapM Step.evaluate? = some (hostCalls body) ∧
      List.Forall₂ Statement.Conveys (body.filter (!·.isPragma)) (hostCalls body) := by
  refine ⟨fun n hn => readSteps?_lines hn h, ?_, ?_⟩
  · rw [funext Step.evaluate?_eq_hostCall]
    exact List.mapM_pure
  · induction body with
    | nil => exact .nil
    | cons x body ih =>
      rw [List.forall_mem_cons] at h
      cases hp : x.isPragma with
      | true =>
        rw [List.filter_cons_of_neg (by simp [hp]), hostCalls_cons_pragma hp]
        exact ih h.2
      | false =>
        obtain ⟨step, hstep, hconveys⟩ := exists_step hp h.1
        rw [List.filter_cons_of_pos (by simp [hp]), hostCalls_cons hstep]
        exact .cons hconveys (ih h.2)

/-- A body with every kind of pragma, and with URLs and wrappers in both places for expressions. -/
theorem wrapped_urls_convey :
    let body : List Statement :=
      [.pragma (.line 1 "page"), .write (.raw (.url "~/a")) 0, .pragma .hidden, .literal "x" 3,
        .attribute ⟨"class", ⟨" class=\"", 4⟩, ⟨"\"", 15⟩,
          [.literal ⟨"", 5⟩ ⟨"b", 5⟩, .dynamic ⟨" ", 6⟩ (.encode (.url "c")) 7,
            .dynamic ⟨" ", 8⟩ (.path "d.e") 9]⟩, .pragma .default]
    (∀ x ∈ body, x.isSnippet = false) ∧
      readSteps? {} .outside (bodyLines {} body) =
        some (body.filterMap Step.ofStatement?) ∧
      (body.filterMap Step.ofStatement?).mapM Step.evaluate? = some (hostCalls body) ∧
      List.Forall₂ Statement.Conveys (body.filter (!·.isPragma)) (hostCalls body) := by
  intro body
  have hs : ∀ x ∈ body, x.isSnippet = false := by decide
  exact ⟨hs, (hostCalls_conveys hs).1 {} methodWords_default, (hostCalls_conveys hs).2⟩

end Sigil.Code
