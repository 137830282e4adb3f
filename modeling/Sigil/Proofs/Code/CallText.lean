import Sigil.Code.Call
import Sigil.Proofs.Code.Lexeme
import Sigil.Proofs.Template.Evaluated

/-!
# The text of a call

The text of a statement's call for any way to write its URLs, each of which has the number of URLs
in front of it. The lines of a statement are its call with locals for URLs, alone or in a block that
binds these locals first (`statementLines_of_isCall`).
-/

namespace Sigil.Template

/-- The URL that an expression wraps. -/
def Expr.url? : Expr → Option String
  | .url p => some p
  | .raw e => e.url?
  | .encode e => e.url?
  | _ => none

def Fragment.url? (f : Fragment) : Option String := f.expr?.bind Expr.url?

def Statement.urls (s : Statement) : List String := s.exprs.filterMap Expr.url?

theorem urls_write (e : Expr) (position : Nat) :
    (Statement.write e position).urls = e.url?.toList := by
  rw [Statement.urls, Statement.exprs, List.filterMap_cons]
  cases e.url? <;> rfl

theorem urls_attribute (w : AttributeWrite) :
    (Statement.attribute w).urls = w.fragments.filterMap Fragment.url? :=
  List.filterMap_filterMap

def Statement.isPragma : Statement → Bool
  | .pragma _ => true
  | _ => false

def Statement.isSnippet : Statement → Bool
  | .snippet _ => true
  | _ => false

/-- A statement that becomes a call. -/
def Statement.IsCall : Statement → Prop
  | .pragma _ => False
  | .snippet _ => False
  | _ => True

/-- How many URLs stand in front of the fragment number `i`. -/
def urlsBefore (fs : List Fragment) (i : Nat) : Nat :=
  ((fs.take i).filterMap Fragment.url?).length

theorem urlsBefore_zero (fs : List Fragment) : urlsBefore fs 0 = 0 := rfl

theorem urlsBefore_cons_succ (f : Fragment) (fs : List Fragment) (i : Nat) :
    urlsBefore (f :: fs) (i + 1) = f.url?.toList.length + urlsBefore fs i := by
  rw [urlsBefore, List.take_succ_cons, List.filterMap_cons, urlsBefore]
  cases f.url? with
  | none => exact (Nat.zero_add _).symm
  | some u => exact Nat.add_comm ..

end Sigil.Template

namespace Sigil.Code

open Text Template

/-! ## Text -/

/-- The argument for an expression, with a URL's value written in some way. -/
def exprText (url : String → String) : Expr → String
  | .path p => "expr_path(" ++ quote p ++ ")"
  | .str s => "expr_str(" ++ quote s ++ ")"
  | .number s => "expr_number(" ++ quote s ++ ")"
  | .bool b => "expr_bool(" ++ toString b ++ ")"
  | .null => "expr_null()"
  | .raw e => "raw(" ++ exprText url e ++ ")"
  | .encode e => "encode(" ++ exprText url e ++ ")"
  | .url p => "expr_str(&" ++ url p ++ ")"

def fragmentText (url : String → String) : Fragment → String
  | .literal lead value => "attr_literal(" ++ placedText lead ++ ", " ++ placedText value ++ ")"
  | .dynamic lead e position =>
    "attr_dynamic(" ++ placedText lead ++ ", " ++ exprText url e ++ ", " ++ toString position ++ ")"

theorem fragmentText_literal (url : String → String) (lead value : Placed) :
    fragmentText url (.literal lead value) =
      "attr_literal(" ++ placedText lead ++ ", " ++ placedText value ++ ")" := rfl

theorem fragmentText_dynamic (url : String → String) (lead : Placed) (e : Expr) (position : Nat) :
    fragmentText url (.dynamic lead e position) =
      "attr_dynamic(" ++ placedText lead ++ ", " ++ exprText url e ++ ", " ++ toString position ++
        ")" := rfl

/-- The call for a statement. `url k u` is written for the URL `u` that `k` others stand in front
of. -/
def callText (n : ClassNames) (url : Nat → String → String) : Statement → String
  | .literal t _ => "self." ++ n.writeLiteral ++ "(" ++ quote t ++ ");"
  | .write e _ => "self." ++ n.write ++ "(" ++ exprText (url 0) e ++ ");"
  | .attribute w =>
    "self." ++ n.writeAttribute ++ "(" ++ quote w.name ++ ", (" ++ placedText w.opening ++ "), (" ++
      placedText w.closing ++ "), &[" ++
      ", ".intercalate (w.fragments.mapIdx fun i f =>
        fragmentText (url (urlsBefore w.fragments i)) f) ++ "]);"
  | _ => ""

section

variable (n : ClassNames) (url : Nat → String → String)

theorem callText_literal (t : String) (position : Nat) :
    callText n url (.literal t position) = "self." ++ n.writeLiteral ++ "(" ++ quote t ++ ");" := rfl

theorem callText_write (e : Expr) (position : Nat) :
    callText n url (.write e position) =
      "self." ++ n.write ++ "(" ++ exprText (url 0) e ++ ");" := rfl

theorem callText_attribute (w : AttributeWrite) :
    callText n url (.attribute w) =
      "self." ++ n.writeAttribute ++ "(" ++ quote w.name ++ ", (" ++ placedText w.opening ++
        "), (" ++ placedText w.closing ++ "), &[" ++
        ", ".intercalate (w.fragments.mapIdx fun i f =>
          fragmentText (url (urlsBefore w.fragments i)) f) ++ "]);" := rfl

end

def resolving (n : ClassNames) (url : String) : String :=
  "self." ++ n.resolveUrl ++ "(" ++ quote url ++ ")"

def bindings (n : ClassNames) (s : Statement) : List (String × String) :=
  s.urls.mapIdx fun k u => (urlLocal k, resolving n u)

/-- The line that binds a local to an expression, inside a block. -/
def bindingLine (b : String × String) : String := "    let " ++ b.1 ++ " = " ++ b.2 ++ ";"

/-- The lines of a call that binds its URLs first. -/
def boundLines (n : ClassNames) (s : Statement) : List String :=
  "\x7b" :: (bindings n s).map bindingLine ++
    ["    " ++ callText n (fun k _ => urlLocal k) s, "\x7d"]

/-! ## From statements to lines -/

theorem urls_hoist (k : Nat) (e : Expr) : (hoist k e).2 = e.url?.toList := by
  induction e with
  | raw e ih => exact ih
  | encode e ih => exact ih
  | _ => rfl

theorem text_hoist (k : Nat) (e : Expr) :
    (hoist k e).1.text = exprText (fun _ => urlLocal k) e := by
  induction e with
  | raw e ih => exact congrArg ("raw(" ++ · ++ ")") ih
  | encode e ih => exact congrArg ("encode(" ++ · ++ ")") ih
  | bool b => cases b <;> rfl
  | _ => rfl

theorem hoistAll_literal (k : Nat) (lead value : Placed) (fs : List Fragment) :
    hoistAll k (.literal lead value :: fs) =
      (.literal lead value :: (hoistAll k fs).1, (hoistAll k fs).2) := rfl

theorem hoistAll_dynamic (k : Nat) (lead : Placed) (e : Expr) (position : Nat)
    (fs : List Fragment) :
    hoistAll k (.dynamic lead e position :: fs) =
      (.dynamic lead (hoist k e).1 position :: (hoistAll (k + (hoist k e).2.length) fs).1,
        (hoist k e).2 ++ (hoistAll (k + (hoist k e).2.length) fs).2) := rfl

theorem urls_hoistAll (k : Nat) (fs : List Fragment) :
    (hoistAll k fs).2 = fs.filterMap Fragment.url? := by
  induction fs generalizing k with
  | nil => rfl
  | cons f fs ih =>
    cases f with
    | literal lead value => exact ih k
    | dynamic lead e position =>
      have hurl : (Fragment.dynamic lead e position).url? = e.url? := rfl
      rw [hoistAll_dynamic, urls_hoist, ih, List.filterMap_cons, hurl]
      cases e.url? <;> rfl

/-- The local of a fragment's URL is numbered by the URLs in front of the fragment. -/
theorem text_hoistAll (k : Nat) (fs : List Fragment) :
    (hoistAll k fs).1.map Part.text =
      fs.mapIdx fun i f => fragmentText (fun _ => urlLocal (k + urlsBefore fs i)) f := by
  induction fs generalizing k with
  | nil => rfl
  | cons f fs ih =>
    -- The rest is hoisted from a number that counts the first fragment's URL.
    have hnext : ∀ i, k + urlsBefore (f :: fs) (i + 1) =
        k + f.url?.toList.length + urlsBefore fs i := fun i => by
      rw [urlsBefore_cons_succ, Nat.add_assoc]
    simp only [List.mapIdx_cons, urlsBefore_zero, Nat.add_zero, hnext]
    cases f with
    | literal lead value =>
      have hurl : (Fragment.literal lead value).url? = none := rfl
      have htext : (Part.literal lead value).text =
          fragmentText (fun _ => urlLocal k) (.literal lead value) := rfl
      rw [hoistAll_literal, List.map_cons, ih, htext, hurl, Option.toList_none, List.length_nil,
        Nat.add_zero]
    | dynamic lead e position =>
      have hurl : (Fragment.dynamic lead e position).url? = e.url? := rfl
      have htext : (Part.dynamic lead (hoist k e).1 position).text =
          fragmentText (fun _ => urlLocal k) (.dynamic lead e position) :=
        congrArg (fun t => "attr_dynamic(" ++ placedText lead ++ ", " ++ t ++ ", " ++
          toString position ++ ")") (text_hoist k e)
      rw [hoistAll_dynamic, List.map_cons, ih, htext, urls_hoist, hurl]

theorem urls_ofStatement {s : Statement} {step : Step} (h : Step.ofStatement? s = some step) :
    step.urls = s.urls := by
  match s with
  | .literal t position => cases h; rfl
  | .write e position =>
    cases h
    rw [urls_write]
    exact urls_hoist 0 e
  | .attribute w =>
    cases h
    rw [urls_attribute]
    exact urls_hoistAll 0 w.fragments
  | .pragma p => cases h
  | .snippet t => cases h

theorem text_ofStatement (n : ClassNames) {s : Statement} {step : Step}
    (h : Step.ofStatement? s = some step) :
    step.call.text n = callText n (fun k _ => urlLocal k) s := by
  match s with
  | .literal t position => cases h; rfl
  | .write e position =>
    cases h
    exact congrArg ("self." ++ n.write ++ "(" ++ · ++ ");") (text_hoist 0 e)
  | .attribute w =>
    cases h
    have hparts := text_hoistAll 0 w.fragments
    simp only [Nat.zero_add] at hparts
    exact congrArg (fun parts => "self." ++ n.writeAttribute ++ "(" ++ quote w.name ++ ", (" ++
      placedText w.opening ++ "), (" ++ placedText w.closing ++ "), &[" ++
      ", ".intercalate parts ++ "]);") hparts
  | .pragma p => cases h
  | .snippet t => cases h

theorem deeper_bindingText (n : ClassNames) (k : Nat) (u : String) :
    deeper (bindingText n k u) = bindingLine (urlLocal k, resolving n u) := by
  apply String.toList_inj.1
  simp only [deeper, bindingText, bindingLine, resolving, String.toList_append, List.append_assoc]
  rfl

theorem map_bindings {β : Type} (n : ClassNames) (s : Statement) (f : String × String → β) :
    (bindings n s).map f = s.urls.mapIdx fun k u => f (urlLocal k, resolving n u) := by
  refine List.ext_getElem? fun i => ?_
  simp only [bindings, List.getElem?_map, List.getElem?_mapIdx, Option.map_map]
  rfl

/-- A call stands alone unless it binds URLs first. -/
theorem statementLines_of_isCall (n : ClassNames) {s : Statement} (h : s.IsCall) :
    statementLines n s =
      if s.urls = [] then [callText n (fun k _ => urlLocal k) s] else boundLines n s := by
  obtain ⟨step, hstep⟩ : ∃ step, Step.ofStatement? s = some step := by
    cases s with
    | pragma p => exact h.elim
    | snippet t => exact h.elim
    | _ => exact ⟨_, rfl⟩
  have hlines : statementLines n s = step.lines n := by
    cases s with
    | pragma p => cases hstep
    | snippet t => cases hstep
    | _ => exact congrArg (Option.elim · [] (Step.lines n)) hstep
  rw [hlines, Step.lines, urls_ofStatement hstep, text_ofStatement n hstep, boundLines,
    map_bindings]
  simp only [List.isEmpty_iff, ← deeper_bindingText]
  rfl

end Sigil.Code
