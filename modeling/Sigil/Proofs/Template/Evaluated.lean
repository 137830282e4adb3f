import Sigil.Proofs.Render.Number
import Sigil.Proofs.Template.Draft

/-!
# The expressions of a template

Every expression that the body of a template evaluates has been read by a directive
(`read_of_mem_exprs`), so every number in it is groups of digits with points between them, behind a
minus or not (`spelled_of_mem_exprs`). The scan does not ask for more: there may be any number of
groups, and zeros in front.
-/

namespace Sigil.Template

open Text Cursor Relation

/-! ## The expressions of a body -/

def Fragment.expr? : Fragment → Option Expr
  | .literal .. => none
  | .dynamic _ x _ => some x

def Statement.exprs : Statement → List Expr
  | .write x _ => [x]
  | .attribute w => w.fragments.filterMap Fragment.expr?
  | _ => []

/-- The expressions that a body evaluates, in their order. -/
def exprs (body : List Statement) : List Expr := body.flatMap Statement.exprs

theorem exprs_append (a b : List Statement) : exprs (a ++ b) = exprs a ++ exprs b :=
  List.flatMap_append

theorem exprs_flush (d : Draft) (c : Cursor) : exprs (d.flush c).body = exprs d.body := by
  unfold Draft.flush
  simp only
  split
  · rfl
  · rw [exprs_append]
    exact List.append_nil _

theorem exprs_emit (d : Draft) (src : Source) (c : Cursor) (x : Statement) :
    exprs (d.emit src c x).body = exprs d.body ++ x.exprs := by
  rw [Draft.emit, exprs_append]
  exact congrArg (exprs d.body ++ ·) (List.append_nil _)

namespace ValueDraft

def exprs (v : ValueDraft) : List Expr := v.fragments.filterMap Fragment.expr?

theorem exprs_push (v : ValueDraft) (c : Cursor) (x : Char) : (v.push c x).exprs = v.exprs := by
  rw [exprs, fragments_push, exprs]

theorem exprs_close (v : ValueDraft) (c : Cursor) : (v.close c).exprs = v.exprs := by
  unfold close
  split
  · rw [exprs, List.filterMap_append, exprs]
    exact List.append_nil _
  · rfl

theorem exprs_escape (v : ValueDraft) (c : Cursor) : (v.escape c).exprs = v.exprs :=
  exprs_push v c '@'

theorem exprs_express (v : ValueDraft) (c e : Cursor) (x : Expr) :
    (v.express c e x).exprs = v.exprs ++ [x] := by
  rw [← exprs_close v c]
  exact List.filterMap_append

end ValueDraft

/-! ## Where they come from -/

/-- An expression that some directive reads. -/
def Read (x : Expr) : Prop := ∃ at_ c e, directive at_ c = .ok (x, e)

theorem read_of_readValue {quote : Char} {v : ValueDraft} {c : Cursor}
    (h : ∀ x ∈ v.exprs, Read x) : ∀ x ∈ (readValue quote v c).1.exprs, Read x := by
  fun_induction readValue quote v c with
  | case1 => exact h
  | case2 v c r hr => rwa [ValueDraft.exprs_close]
  | case3 v c x r hr _ hq hb ih => exact ih (by rwa [ValueDraft.exprs_close])
  | case4 v c r hn hr _ hq hb ih => exact ih (by rwa [ValueDraft.exprs_escape])
  | case5 v c r hn ha hr _ hq hb ih => exact ih (by rwa [ValueDraft.exprs_push])
  | case6 v c r hn ha y t hx hl hr _ hq hb ih =>
    refine ih fun x hmem => ?_
    rw [ValueDraft.exprs_express, List.mem_append, List.mem_singleton] at hmem
    rcases hmem with hmem | rfl
    · exact h x hmem
    · exact ⟨_, _, _, hx⟩
  | case7 v c r hn ha f hf hr _ hq hb ih => exact ih (by rwa [ValueDraft.exprs_push])
  | case8 v c x r hr _ hq hb hx ih => exact ih (by rwa [ValueDraft.exprs_push])

theorem read_of_move {src : Source} {d e : Draft} {c t : Cursor}
    (h : ∀ x ∈ exprs d.body, Read x) (hm : Move src (d, c) (e, t)) :
    ∀ x ∈ exprs e.body, Read x := by
  cases hm with
  | keep => exact h
  | omits =>
    intro x hx
    rw [Draft.omit, Draft.resume, exprs_flush] at hx
    exact h x hx
  | write _ _ _ hread =>
    intro x hx
    rw [Draft.write, Draft.resume, exprs_emit, exprs_flush, List.mem_append] at hx
    rcases hx with hx | hx
    · exact h x hx
    · rw [List.mem_singleton.1 hx]
      exact ⟨_, _, _, hread⟩
  | refuse => exact h
  | @dynamic _ _ _ _ value _ quote _ _ hv hdyn =>
    intro x hx
    rw [Draft.attribute_dynamic hdyn, Draft.resume, exprs_emit, exprs_flush, List.mem_append] at hx
    rcases hx with hx | hx
    · exact h x hx
    · have hread : ∀ x ∈ (readValue quote (.start value.next) value.next).1.exprs, Read x :=
        read_of_readValue (List.forall_mem_nil _)
      rw [hv] at hread
      exact hread x hx
  | abandon => exact h

theorem read_of_mem_exprs (src : Source) (names : ClassNames) :
    ∀ x ∈ exprs ((src.parse names).tree.body names.execute), Read x := by
  obtain ⟨d, c, hm, -, hd⟩ := moves_of_start src
  rw [body_parse, hd, exprs_flush]
  exact invariant_of_moves (fun d _ => ∀ x ∈ exprs d.body, Read x) hm read_of_move nofun

/-! ## Numbers -/

/-- The number that an expression is, maybe inside wrappers. -/
def Expr.number? : Expr → Option String
  | .number t => some t
  | .raw x => x.number?
  | .encode x => x.number?
  | _ => none

/-- Whether the number that an expression is, if it is one, is groups of digits. -/
def Expr.Spelled (x : Expr) : Prop :=
  ∀ t ∈ x.number?, ∃ negative whole groups, (∀ g ∈ whole :: groups, Digits g) ∧
    t = String.ofList (groupText negative whole groups)

theorem Expr.spelled_of_none {x : Expr} (h : x.number? = none) : x.Spelled := by
  intro t ht
  rw [h] at ht
  cases ht

/-- What the scan takes behind the first character of a number. -/
theorem exists_groups (s : List Char) :
    ∃ ds groups, s.take (numberTail s) = ds ++ points groups ∧ (∀ x ∈ ds, x.isDigit = true) ∧
      (∀ g ∈ groups, Digits g) ∧ (s.head?.any Char.isDigit = true → ds ≠ []) := by
  fun_induction numberTail s with
  | case1 => exact ⟨[], [], rfl, by simp, by simp, by simp⟩
  | case2 c r hc ih =>
    obtain ⟨ds, groups, htake, hds, hgroups, hne⟩ := ih
    rw [List.take_succ_cons, htake]
    by_cases hd : c.isDigit = true
    · exact ⟨c :: ds, groups, rfl, List.forall_mem_cons.2 ⟨hd, hds⟩, hgroups, by simp⟩
    · have hpoint := (Bool.or_eq_true_iff.1 hc).resolve_left hd
      rw [Bool.and_eq_true, beq_iff_eq] at hpoint
      obtain ⟨rfl, hr⟩ := hpoint
      refine ⟨[], ds :: groups, rfl, by simp, ?_, fun h => absurd h hd⟩
      exact List.forall_mem_cons.2 ⟨⟨hne hr, hds⟩, hgroups⟩
  | case3 c r hc =>
    refine ⟨[], [], rfl, by simp, by simp, fun h => absurd ?_ hc⟩
    rw [Bool.or_eq_true]
    exact .inl h

theorem spelled_readNumber {c : Cursor} {y : Char} {r : List Char} (hc : c.rest = y :: r)
    (hy : startsNumber y r = true) : (readNumber c).1.Spelled := by
  have hspans := (Spans.next hc).trans (Spans.advance (numberTail c.next.rest) c.next)
  have hr : c.next.rest = r := by simp [hc]
  have htext : (readNumber c).1 =
      .number (String.ofList (y :: r.take (numberTail r))) := by
    rw [readNumber]
    simp only
    rw [hspans.between, hr]
    rfl
  obtain ⟨ds, groups, htake, hds, hgroups, hne⟩ := exists_groups r
  rw [htext, htake]
  intro t ht
  cases ht
  simp only [startsNumber, Bool.or_eq_true, Bool.and_eq_true, beq_iff_eq] at hy
  rcases hy with hy | ⟨rfl, hr⟩
  · refine ⟨false, y :: ds, groups, List.forall_mem_cons.2 ⟨⟨List.cons_ne_nil _ _, ?_⟩, hgroups⟩, ?_⟩
    · exact List.forall_mem_cons.2 ⟨hy, hds⟩
    · rw [groupText, join_point]
      rfl
  · refine ⟨true, ds, groups, List.forall_mem_cons.2 ⟨⟨hne hr, hds⟩, hgroups⟩, ?_⟩
    rw [groupText, join_point]
    rfl

theorem spelled_apply {f : Helper} {at_ : Nat} {x y : Expr} (h : f.apply at_ x = .ok y)
    (hx : x.Spelled) : y.Spelled := by
  cases f with
  | raw =>
    cases h
    exact hx
  | encode =>
    cases h
    exact hx
  | url =>
    cases x with
    | str p =>
      cases h
      exact Expr.spelled_of_none rfl
    | _ => cases h

theorem spelled_of_readNamed_of {c d : Cursor} {x : Expr}
    (ih : ∀ {e x}, (nameEnd c).next.rest.length < c.rest.length →
      readExpr (nameEnd c).next = .ok (x, e) → x.Spelled)
    (h : readNamed c = .ok (x, d)) : x.Spelled := by
  rw [readNamed] at h
  simp only at h
  split at h
  · rename_i y hk
    cases h
    unfold keyword? at hk
    split at hk
    · cases hk
      exact Expr.spelled_of_none rfl
    · split at hk
      · cases hk
        exact Expr.spelled_of_none rfl
      · split at hk
        · cases hk
          exact Expr.spelled_of_none rfl
        · cases hk
  · split at h
    · rename_i he
      have hlt := length_next_nameEnd_lt he
      split at h
      · cases h
      · rename_i y e hy
        split at h
        · cases h
        · rw [Except.map.eq_def] at h
          split at h
          · cases h
          · rename_i z hz
            cases h
            exact spelled_apply hz (ih hlt hy)
    · cases h
      exact Expr.spelled_of_none rfl

theorem spelled_of_reading (n : Nat) {c d : Cursor} {x : Expr} (hn : c.rest.length < n)
    (h : readExpr c = .ok (x, d)) : x.Spelled := by
  induction n generalizing c d x with
  | zero => exact absurd hn (Nat.not_lt_zero _)
  | succ n ih =>
    have hs := Cursor.length_skipWhile isAsciiBlank c
    rw [readExpr] at h
    split at h
    · cases h
    · rename_i y r hr
      split at h
      · unfold readString at h
        split at h
        · cases h
          exact Expr.spelled_of_none rfl
        · cases h
      · split at h
        · rename_i hy
          have := spelled_readNumber hr hy
          cases h
          exact this
        · split at h
          · exact spelled_of_readNamed_of (fun hl => ih (by omega)) h
          · split at h <;> cases h

theorem Read.spelled {x : Expr} (h : Read x) : x.Spelled := by
  obtain ⟨at_, c, e, h⟩ := h
  unfold directive at h
  split at h
  · cases h
  · split at h
    · split at h
      · cases h
      · rename_i y d hy
        rw [Except.map.eq_def] at h
        split at h
        · cases h
        · cases h
          exact spelled_of_reading _ (Nat.lt_succ_self _) hy
    · split at h
      · exact spelled_of_readNamed_of (fun _ => spelled_of_reading _ (Nat.lt_succ_self _)) h
      · cases h

def numbers (body : List Statement) : List String := (exprs body).filterMap Expr.number?

theorem spelled_of_mem_numbers {src : Source} {names : ClassNames} {t : String}
    (h : t ∈ numbers ((src.parse names).tree.body names.execute)) :
    ∃ negative whole groups, (∀ g ∈ whole :: groups, Digits g) ∧
      t = String.ofList (groupText negative whole groups) := by
  obtain ⟨x, hx, ht⟩ := List.mem_filterMap.1 h
  exact (read_of_mem_exprs src names x hx).spelled t ht

end Sigil.Template
