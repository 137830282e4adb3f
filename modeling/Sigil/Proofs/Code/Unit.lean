import Sigil.Code.Program
import Sigil.Proofs.Template.Draft

/-!
# The program of a template's unit

What a class does when it is executed is in its execute methods: preparing the class tree takes
out line pragmas, which make no calls, and changes constructors, which are not executed. So the
program of a template's unit makes the calls of the statements that the scan has written
(`program_parse`).
-/

namespace Sigil.Code

open Template

def executedBy (n : ClassNames) : Member → List Statement
  | .method name body => if name = n.execute then body else []
  | _ => []

theorem executed_eq (n : ClassNames) (t : ClassTree) :
    executed n t = t.members.flatMap (executedBy n) := rfl

theorem executedBy_of_isConstructor {n : ClassNames} {m : Member} (h : m.isConstructor = true) :
    executedBy n m = [] := by
  cases m with
  | constructor => rfl
  | method => cases h
  | snippet => cases h

theorem executedBy_shown (n : ClassNames) (m : Member) :
    executedBy n m.shown = (executedBy n m).filterMap Statement.shown? := by
  cases m with
  | method name body =>
    rw [Member.shown, executedBy, executedBy]
    split <;> rfl
  | constructor => rfl
  | snippet => rfl

theorem executed_showLines (n : ClassNames) (t : ClassTree) :
    executed n t.showLines = (executed n t).filterMap Statement.shown? := by
  rw [executed_eq, executed_eq, ClassTree.showLines, List.flatMap_map, List.filterMap_flatMap]
  exact congrArg (t.members.flatMap ·) (funext (executedBy_shown n))

theorem executed_forwardTo (n : ClassNames) (t : ClassTree) (b : BaseType) :
    executed n (t.forwardTo b) = executed n t := by
  have hnew : ∀ cs : List BaseConstructor,
      (cs.map (Member.constructor ∘ Constructor.forwarding)).flatMap (executedBy n) = [] := by
    intro cs
    rw [List.flatMap_eq_nil_iff]
    intro m hm
    obtain ⟨c, -, rfl⟩ := List.mem_map.1 hm
    rfl
  have hold : ∀ ms : List Member,
      (ms.filter (!·.isConstructor)).flatMap (executedBy n) = ms.flatMap (executedBy n) := by
    intro ms
    induction ms with
    | nil => rfl
    | cons m ms ih =>
      by_cases h : m.isConstructor = true
      · rw [List.filter_cons_of_neg (by simp [h]), ih, List.flatMap_cons,
          executedBy_of_isConstructor h, List.nil_append]
      · rw [List.filter_cons_of_pos (by simpa using h), List.flatMap_cons, ih, List.flatMap_cons]
  rw [ClassTree.forwardTo]
  split
  · rfl
  · rw [executed_eq, executed_eq, List.flatMap_append, hnew, List.nil_append, hold]

theorem ofStatement?_shown (s : Statement) :
    s.shown?.bind Step.ofStatement? = Step.ofStatement? s := by
  cases s with
  | pragma p => cases p <;> rfl
  | _ => rfl

/-- Taking out what hides lines takes out no call. -/
theorem hostCalls_shown (body : List Statement) :
    hostCalls (body.filterMap Statement.shown?) = hostCalls body := by
  have h : (fun s : Statement => s.shown?.bind Step.ofStatement?) = Step.ofStatement? :=
    funext ofStatement?_shown
  rw [hostCalls, hostCalls, List.filterMap_filterMap, h]

/-- A class has a unit if the source text of its base type, if there is any, can be rendered. -/
theorem of_eq {n : ClassNames} {t : ClassTree} {base : BaseType} {model : ModelType}
    {extra : Option String} (h : base.source.mapM (renderSource n) = .ok extra) :
    SourceUnit.of n t base model = .ok ⟨n, t.showLines.forwardTo base, model, extra⟩ := by
  rw [SourceUnit.of, h]
  rfl

/-- The unit of a class holds its names, its prepared tree and its model type. -/
theorem eq_of_of {n : ClassNames} {t : ClassTree} {base : BaseType} {model : ModelType}
    {u : SourceUnit} (h : SourceUnit.of n t base model = .ok u) :
    u = ⟨n, t.showLines.forwardTo base, model, u.extra⟩ := by
  cases he : base.source.mapM (renderSource n) with
  | error f =>
    rw [SourceUnit.of, he] at h
    cases h
  | ok extra =>
    rw [of_eq he] at h
    cases h
    rfl

theorem program_of {n : ClassNames} {t : ClassTree} {base : BaseType} {model : ModelType}
    {u : SourceUnit} (h : SourceUnit.of n t base model = .ok u) :
    u.program = ⟨abiVersion, hostCalls (executed n t)⟩ := by
  rw [eq_of_of h, SourceUnit.program, executed_forwardTo, executed_showLines, hostCalls_shown]

/-- The program of a template's unit makes the calls of its statements. -/
theorem program_parse {src : Source} {n : ClassNames} {base : BaseType} {model : ModelType}
    {u : SourceUnit} (h : SourceUnit.of n (src.parse n).tree base model = .ok u) :
    u.program = ⟨abiVersion, hostCalls ((src.parse n).tree.body n.execute)⟩ := by
  have hbody : executed n (src.parse n).tree = (scanned src).body := by
    rw [executed_eq]
    show [].append ((if n.execute = n.execute then (scanned src).body else []).append []) = _
    rw [if_pos rfl]
    exact List.append_nil _
  rw [program_of h, hbody, body_parse]

end Sigil.Code
