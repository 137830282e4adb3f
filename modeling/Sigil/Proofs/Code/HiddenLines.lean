import Mathlib.Data.List.Forall2
import Sigil.Code.Preparation
import Sigil.Proofs.Text.Occurrence

/-!
# Hidden lines

What `showLines` leaves of a class tree. The pragmas that hide lines are gone, a snippet is what
stood in it between the texts that hide lines, and all else stays as it is and where it is. Taking
such a text out can bring the parts of another together: lines stay hidden, and the tree changes
once more when it is prepared again, exactly if a snippet holds a broken one
(`showLines_shows_iff`).
-/

namespace Sigil.Template

open Text

/-! ## Snippets -/

def Statement.snippet? : Statement → Option String
  | .snippet s => some s
  | _ => none

/-- The snippet that a member is, or those in the body of a method. -/
def Member.snippets : Member → List String
  | .snippet s => [s]
  | .method _ body => body.filterMap Statement.snippet?
  | .constructor _ => []

def ClassTree.snippets (t : ClassTree) : List String := t.members.flatMap Member.snippets

theorem snippet?_shown (x : Statement) :
    x.shown?.bind Statement.snippet? = x.snippet?.map showSnippet := by
  cases x with
  | pragma p => cases p <;> rfl
  | _ => rfl

theorem snippets_shown (m : Member) : m.shown.snippets = m.snippets.map showSnippet := by
  cases m with
  | constructor c => rfl
  | snippet s => rfl
  | method name body =>
    rw [Member.shown, Member.snippets, Member.snippets, List.filterMap_filterMap,
      funext snippet?_shown, List.map_filterMap]

theorem snippets_showLines (t : ClassTree) :
    t.showLines.snippets = t.snippets.map showSnippet := by
  rw [ClassTree.snippets, ClassTree.snippets, ClassTree.showLines, List.flatMap_map,
    List.map_flatMap]
  exact congrArg (t.members.flatMap ·) (funext snippets_shown)

/-! ## What is left -/

/-- `s'` is what stands in `s` between the texts that hide lines. -/
def Uncovered (s s' : String) : Prop :=
  ∃ parts, s.toList = join hiddenLine parts ∧ s'.toList = parts.flatten ∧
    ∀ p ∈ parts, ¬ hiddenLine <:+: p

/-- A statement before and after hidden lines are shown. -/
inductive Statement.Shows : Statement → Statement → Prop
  | snippet {s s' : String} : Uncovered s s' → Shows (.snippet s) (.snippet s')
  | other {x : Statement} : x.snippet? = none → Shows x x

/-- A member before and after hidden lines are shown. -/
inductive Member.Shows : Member → Member → Prop
  | constructor (c : Constructor) : Shows (.constructor c) (.constructor c)
  | snippet {s s' : String} : Uncovered s s' → Shows (.snippet s) (.snippet s')
  | method (name : String) {body body' : List Statement} :
      List.Forall₂ Statement.Shows (body.filter (· ≠ .pragma .hidden)) body' →
      Shows (.method name body) (.method name body')

theorem join_nil (parts : List (List Char)) : join [] parts = parts.flatten := by
  induction parts with
  | nil => rfl
  | cons p parts ih =>
    by_cases h : parts = []
    · rw [h, join, List.flatten_cons, List.flatten_nil, List.append_nil]
    · rw [join_cons h, List.append_nil, ih, List.flatten_cons]

theorem uncovered_showSnippet (s : String) : Uncovered s (showSnippet s) := by
  refine ⟨pieces hiddenLine hiddenLine_ne_nil s.toList, ?_, ?_, fun p hp => ?_⟩
  · rw [join_pieces]
  · rw [showSnippet, String.toList_ofList, replaceAll, join_nil]
  · exact not_isInfix_of_mem_pieces hiddenLine_ne_nil hp

theorem shows_body (body : List Statement) :
    List.Forall₂ Statement.Shows (body.filter (· ≠ .pragma .hidden))
      (body.filterMap Statement.shown?) := by
  induction body with
  | nil => exact .nil
  | cons x body ih =>
    by_cases hx : x = .pragma .hidden
    · rw [hx, List.filter_cons_of_neg (by decide), List.filterMap_cons_none rfl]
      exact ih
    · rw [List.filter_cons_of_pos (by simpa using hx)]
      cases x with
      | snippet s => exact .cons (.snippet (uncovered_showSnippet s)) ih
      | pragma p =>
        cases p with
        | hidden => exact absurd rfl hx
        | _ => exact .cons (.other rfl) ih
      | _ => exact .cons (.other rfl) ih

theorem shows_shown (m : Member) : m.Shows m.shown := by
  cases m with
  | constructor c => exact .constructor c
  | snippet s => exact .snippet (uncovered_showSnippet s)
  | method name body => exact .method name (shows_body body)

theorem hidden_notMem_shown (body : List Statement) :
    .pragma .hidden ∉ body.filterMap Statement.shown? := by
  intro h
  obtain ⟨x, -, hx⟩ := List.mem_filterMap.1 h
  cases x with
  | pragma p => cases p <;> cases hx
  | _ => cases hx

/-! ## Preparing once more -/

theorem isInfix_showSnippet_iff (s : String) :
    hiddenLine <:+: (showSnippet s).toList ↔ Broken hiddenLine s.toList := by
  rw [showSnippet, String.toList_ofList]
  exact isInfix_replaceAll_iff hiddenLine_ne_nil (by decide) s.toList

theorem showSnippet_eq_self_iff (s : String) :
    showSnippet s = s ↔ ¬ hiddenLine <:+: s.toList := by
  rw [← replaceAll_eq_self_iff hiddenLine_ne_nil, ← String.toList_inj, showSnippet,
    String.toList_ofList]

/-- The tree stays as it is exactly if each of its snippets does and no pragma hides a line. -/
theorem showLines_showLines_iff (t : ClassTree) :
    t.showLines.showLines = t.showLines ↔
      ∀ s ∈ t.snippets, showSnippet (showSnippet s) = showSnippet s := by
  constructor
  · intro h
    have hs := snippets_showLines t.showLines
    rw [h, snippets_showLines, List.map_map] at hs
    exact fun s hs' => (List.map_inj_left.1 hs s hs').symm
  · intro h
    have hmembers : ∀ m ∈ t.members, m.shown.shown = m.shown := by
      intro m hm
      have hsnippets : ∀ s ∈ m.snippets, showSnippet (showSnippet s) = showSnippet s :=
        fun s hs => h s (List.mem_flatMap.2 ⟨m, hm, hs⟩)
      cases m with
      | constructor c => rfl
      | snippet s => exact congrArg Member.snippet (hsnippets s (List.mem_singleton_self s))
      | method name body =>
        refine congrArg (Member.method name) ?_
        rw [List.filterMap_filterMap]
        refine List.filterMap_congr fun x hx => ?_
        cases x with
        | snippet s =>
          have hmem : s ∈ body.filterMap Statement.snippet? := List.mem_filterMap.2 ⟨_, hx, rfl⟩
          exact congrArg (fun s => some (Statement.snippet s)) (hsnippets s hmem)
        | pragma p => cases p <;> rfl
        | _ => rfl
    refine congrArg (fun ms => { t with members := ms }) ?_
    rw [ClassTree.showLines, List.map_map]
    exact List.map_congr_left hmembers

/-- Pragmas that hide lines are gone and snippets are uncovered, and nothing else changes. No
snippet hides a line, and preparing the tree again leaves it as it is, exactly if no snippet held a
broken text that hides lines. -/
theorem showLines_shows_iff (t : ClassTree) :
    (t.showLines = { t with members := t.showLines.members } ∧
      List.Forall₂ Member.Shows t.members t.showLines.members) ∧
    (∀ name body, .method name body ∈ t.showLines.members → .pragma .hidden ∉ body) ∧
    ((∀ s ∈ t.showLines.snippets, ¬ hiddenLine <:+: s.toList) ↔
      ∀ s ∈ t.snippets, ¬ Broken hiddenLine s.toList) ∧
    (t.showLines.showLines = t.showLines ↔ ∀ s ∈ t.snippets, ¬ Broken hiddenLine s.toList) := by
  refine ⟨⟨rfl, ?_⟩, ?_, ?_, ?_⟩
  · rw [ClassTree.showLines, List.forall₂_map_right_iff, List.forall₂_same]
    exact fun m _ => shows_shown m
  · intro name body h
    obtain ⟨m, -, hm⟩ := List.mem_map.1 h
    cases m with
    | constructor c => cases hm
    | snippet s => cases hm
    | method name body =>
      cases hm
      exact hidden_notMem_shown body
  · rw [snippets_showLines, List.forall_mem_map]
    exact forall₂_congr fun s _ => not_congr (isInfix_showSnippet_iff s)
  · rw [showLines_showLines_iff]
    refine forall₂_congr fun s _ => ?_
    rw [showSnippet_eq_self_iff, isInfix_showSnippet_iff]

/-- A class with one snippet, in which one text that hides lines stands inside another. -/
def nestedHiding : ClassTree := ⟨"N", ∅, "C", "B", [.snippet "#line #line hiddenhidden"]⟩

theorem broken_nestedHiding : Broken hiddenLine "#line #line hiddenhidden".toList := by
  refine ⟨"#line ".toList, "hidden".toList, "hidden".toList, by decide, by decide, by decide, ?_,
    [], [], by decide⟩
  exact (Filled.nil.chars _ : Filled hiddenLine ("hidden".toList ++ []) ("hidden".toList ++ []))

/-- The outer text hides its line once the inner one is out. -/
theorem hidden_line_comes_back :
    ¬ (∀ s ∈ nestedHiding.showLines.snippets, ¬ hiddenLine <:+: s.toList) ∧
      nestedHiding.showLines.showLines ≠ nestedHiding.showLines := by
  have hleft := (isInfix_showSnippet_iff _).2 broken_nestedHiding
  refine ⟨fun h => h _ (List.mem_singleton_self _) hleft, fun h => ?_⟩
  have hsame := (showLines_showLines_iff nestedHiding).1 h _ (List.mem_singleton_self _)
  exact (showSnippet_eq_self_iff _).1 hsame hleft

end Sigil.Template
