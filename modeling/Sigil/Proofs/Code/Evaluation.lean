import Sigil.Proofs.Code.Meaning
import Sigil.Proofs.Template.Evaluated

/-!
# Which templates evaluate

A body with an expression that has no value fails, with the error of the first such expression
unless the encoder panics before, and another one can only fail since the encoder panics
(`fault_of_outcome`, `fault_of_outcome_ok`). A path has a value if the model holds enough members, a
literal always has one unless it is a number that cannot be read. So a template fails on a number in
some scope exactly if one of its numbers cannot be read, and it then renders in no scope
(`numbers_evaluate_iff`): the scan takes groups of digits that are no JSON numeral
(`leading_zero_fails`).
-/

namespace Sigil

open Text Template Render

/-! ## Failures -/

section

variable {α β ε : Type}

def failure? : Except ε α → Option ε
  | .error e => some e
  | .ok _ => none

theorem failure?_eq_some_iff {x : Except ε α} {e : ε} : failure? x = some e ↔ x = .error e := by
  cases x with
  | error f => simp [failure?]
  | ok a => simp [failure?]

theorem failure?_map (x : Except ε α) (f : α → β) : failure? (x.map f) = failure? x := by
  cases x <;> rfl

theorem failure?_mapM (f : α → Except ε β) (xs : List α) :
    failure? (xs.mapM f) = xs.findSome? (failure? <| f ·) := by
  induction xs with
  | nil => rfl
  | cons x xs ih =>
    rw [List.mapM_cons, List.findSome?_cons]
    cases f x with
    | error e => rfl
    | ok y =>
      rw [← ih]
      show failure? ((xs.mapM f).map (y :: ·)) = _
      exact failure?_map _ _

end

namespace Code

def fault? (s : Scope) (x : Expr) : Option RenderError := failure? (s.value x.operand)

section

variable {s : Scope}

theorem failure?_evaluate (o : Operand) (m : Mode) :
    failure? (s.evaluate o m) = failure? (s.value o) := failure?_map _ _

theorem failure?_piece {f : Fragment} {a : FragmentArgument} (h : f.Conveys a) :
    failure? (a.piece s) = f.expr?.bind (fault? s) := by
  cases h with
  | literal hl hlead _ hv _ =>
    unfold FragmentArgument.piece
    rw [hlead, hl, hv]
    rfl
  | @dynamic lead x position _ hl hlead _ hv _ =>
    unfold FragmentArgument.piece
    rw [hlead, hl, hv]
    show failure? ((s.evaluate x.operand x.mode).map _) = fault? s x
    rw [failure?_map, failure?_evaluate]
    rfl

theorem failure?_fragments {fs : List Fragment} {as : List FragmentArgument}
    (h : List.Forall₂ Fragment.Conveys fs as) :
    failure? (as.mapM (·.piece s)) = (fs.filterMap Fragment.expr?).findSome? (fault? s) := by
  rw [failure?_mapM]
  induction h with
  | nil => rfl
  | @cons f a fs as hf _ ih =>
    rw [List.findSome?_cons, failure?_piece hf, ih]
    cases hx : f.expr? with
    | none => rw [List.filterMap_cons_none hx, Option.bind_none]
    | some x => rw [List.filterMap_cons_some hx, List.findSome?_cons, Option.bind_some]

/-- A call has no texts exactly if an expression of its statement has no value, and its error is that
of the first. -/
theorem failure?_texts {x : Statement} {c : Render.Call} (h : x.Conveys c) :
    failure? (c.texts s) = x.exprs.findSome? (fault? s) := by
  cases h with
  | literal h =>
    rw [Render.Call.texts, h]
    rfl
  | @write x position a h =>
    rw [Render.Call.texts, h]
    show failure? ((s.evaluate x.operand x.mode).map _) = _
    rw [failure?_map, failure?_evaluate, Statement.exprs, List.findSome?_singleton]
    rfl
  | @attributeWrite w name opening closing fragments hname hopening hclosing hfragments =>
    have hpieces := failure?_fragments (s := s) hfragments
    rw [Statement.exprs, ← hpieces, Render.Call.texts, hname, hopening, hclosing]
    cases fragments.mapM (·.piece s) <;> rfl

theorem failure?_calls (body : List Statement) :
    failure? ((hostCalls body).mapM (Render.Call.texts s)) =
      (exprs body).findSome? (fault? s) := by
  rw [failure?_mapM]
  induction body with
  | nil => rfl
  | cons x body ih =>
    rw [exprs, List.flatMap_cons, List.findSome?_append]
    by_cases hp : x.isPragma = true
    · have hx : x.exprs = [] := by cases x <;> first | rfl | cases hp
      rw [hostCalls_cons_pragma hp, hx, ih]
      rfl
    · by_cases hs : x.isSnippet = true
      · obtain ⟨text, rfl⟩ : ∃ text, x = .snippet text := by
          cases x <;> first | exact ⟨_, rfl⟩ | cases hs
        exact ih
      · obtain ⟨step, hstep, hconveys⟩ :=
          exists_step (Bool.of_not_eq_true hp) (Bool.of_not_eq_true hs)
        rw [hostCalls_cons hstep, List.findSome?_cons, failure?_texts hconveys, ih]
        cases x.exprs.findSome? (fault? s) <;> rfl

/-- The first call that fails is the first one without texts, unless the encoder panics. -/
theorem failure?_mapM_texts {cs : List Render.Call} {e : RenderError}
    (h : failure? (cs.mapM (Render.Call.outcome s)) = some e) :
    failure? (cs.mapM (Render.Call.texts s)) = some e ∨ s.encoder.Raises e := by
  rw [failure?_mapM] at h ⊢
  induction cs with
  | nil => cases h
  | cons c cs ih =>
    rw [List.findSome?_cons] at h ⊢
    cases ho : c.outcome s with
    | error f =>
      rw [ho] at h
      cases h
      refine (Render.Call.outcome_eq_error ho).imp_left fun ht => ?_
      rw [ht]
      rfl
    | ok t =>
      rw [ho] at h
      obtain ⟨os, hos, -⟩ := eq_ok_of_bind ho
      rw [hos]
      exact ih h

/-- What a template's body does in a scope. -/
def outcome (s : Scope) (body : List Statement) : Except RenderError String :=
  (⟨abiVersion, hostCalls body⟩ : Program).execute abiVersion s

theorem failure?_execute (body : List Statement) :
    failure? (outcome s body) = failure? ((hostCalls body).mapM (Render.Call.outcome s)) := by
  rw [outcome, Program.execute, if_pos rfl, Rendering.finish_run rfl, failure?_map]

variable {body : List Statement}

/-- A body that fails does so with the error of its first expression that has no value, or since the
encoder panics. -/
theorem fault_of_outcome {e : RenderError} (h : outcome s body = .error e) :
    (exprs body).findSome? (fault? s) = some e ∨ s.encoder.Raises e := by
  rw [← failure?_calls]
  exact failure?_mapM_texts (by rw [← failure?_execute, failure?_eq_some_iff, h])

/-- All expressions of a body that renders have values. -/
theorem fault_of_outcome_ok {text : String} (h : outcome s body = .ok text) :
    (exprs body).findSome? (fault? s) = none := by
  have hnone : failure? ((hostCalls body).mapM (Render.Call.outcome s)) = none := by
    rw [← failure?_execute, h]
    rfl
  rw [← failure?_calls]
  rw [failure?_mapM, List.findSome?_eq_none_iff] at hnone ⊢
  intro c hc
  cases ht : c.texts s with
  | ok os => rfl
  | error e =>
    have := hnone c hc
    rw [Render.Call.outcome_of_texts_error ht] at this
    cases this

end

/-! ## Values of paths and literals -/

/-- An object of objects with the same members, to some depth. -/
def nested (keys : List String) : Nat → Json
  | 0 => .null
  | n + 1 => .obj (keys.map (·, nested keys n))

theorem get?_map_pair {keys : List String} {k : String} (h : k ∈ keys) (v : Json) :
    Keyed.get? k (keys.map (·, v)) = some v := by
  induction keys with
  | nil => cases h
  | cons key keys ih =>
    rw [List.map_cons, Keyed.get?]
    split
    · rfl
    · rename_i hne
      exact ih ((List.mem_cons.1 h).resolve_left hne)

theorem exists_walk? {keys segments : List String} {n : Nat} (hk : ∀ k ∈ segments, k ∈ keys)
    (hn : segments.length ≤ n) : ∃ j, (nested keys n).walk? segments = some j := by
  induction segments generalizing n with
  | nil => exact ⟨_, rfl⟩
  | cons k segments ih =>
    rw [List.forall_mem_cons] at hk
    obtain ⟨m, rfl⟩ := Nat.exists_eq_add_of_le' (Nat.lt_of_lt_of_le (Nat.succ_pos _) hn)
    obtain ⟨j, hj⟩ := ih hk.2 (n := m) (by simpa using hn)
    refine ⟨j, ?_⟩
    rw [Json.walk?, nested, Json.member?, get?_map_pair hk.1, Option.bind_some, hj]

/-- A path whose segments the model holds to their number has a value. -/
theorem exists_resolve {s : Scope} {p : String} {keys : List String} {n : Nat}
    (hs : s.model = nested keys n) (hk : ∀ k ∈ Json.segments p, k ∈ keys)
    (hn : (Json.segments p).length ≤ n) : ∃ j, s.resolve p = .ok j := by
  unfold Scope.resolve
  cases hp : Json.segments p with
  | nil => exact absurd hp (Json.segments_ne_nil p)
  | cons head rest =>
    rw [hp] at hk hn
    simp only
    split
    · obtain ⟨j, hj⟩ := exists_walk? (n := n) (List.forall_mem_cons.1 hk).2
        (Nat.le_of_succ_le hn)
      rw [hs, hj]
      exact ⟨j, rfl⟩
    · split
      · exact ⟨_, rfl⟩
      · obtain ⟨j, hj⟩ := exists_walk? hk hn
        rw [Json.walk?] at hj
        obtain ⟨first, hfirst, hj⟩ := Option.bind_eq_some_iff.1 hj
        rw [hs, hfirst]
        simp only
        rw [hj]
        exact ⟨j, rfl⟩

/-- The segments of the path that an expression reads. -/
def segmentsOf (x : Expr) : List String :=
  match x.operand with
  | .path p => Json.segments p
  | _ => []

/-- In some scope every path of some expressions has a value and the encoder does not panic. -/
theorem exists_scope (xs : List Expr) :
    ∃ s : Scope, s.encoder.Total ∧
      ∀ x ∈ xs, ∀ p, x.operand = .path p → ∃ j, s.resolve p = .ok j := by
  refine ⟨⟨nested (xs.flatMap segmentsOf) (xs.flatMap segmentsOf).length, ∅, .html⟩,
    Encoder.html_total, fun x hx p hp => ?_⟩
  have hsegments : segmentsOf x = Json.segments p := by rw [segmentsOf, hp]
  have hinfix : Json.segments p <:+: xs.flatMap segmentsOf := by
    obtain ⟨a, b, rfl⟩ := List.append_of_mem hx
    refine ⟨a.flatMap segmentsOf, b.flatMap segmentsOf, ?_⟩
    rw [List.flatMap_append, List.flatMap_cons, hsegments, List.append_assoc]
  exact exists_resolve rfl (fun k hk => hinfix.subset hk) hinfix.length_le

/-! ## Numbers that cannot be read -/

theorem operand_eq_number_iff {x : Expr} {t : String} :
    x.operand = .number t ↔ x.number? = some t := by
  induction x with
  | number => simp [Expr.operand, Expr.number?]
  | raw x ih => exact ih
  | encode x ih => exact ih
  | url p =>
    rw [operand_url]
    simp [Expr.number?]
  | _ => simp [Expr.operand, Expr.number?]

theorem resolve_ne_invalidNumber (s : Scope) (p t : String) :
    s.resolve p ≠ .error (.invalidNumber t) := by
  have helim : ∀ o : Option Json,
      o.elim (.error (RenderError.missingMember p)) Except.ok ≠
        .error (RenderError.invalidNumber t) := by
    intro o
    cases o <;> exact nofun
  unfold Scope.resolve
  simp only
  split
  · exact nofun
  · split
    · exact helim _
    · split
      · exact nofun
      · split
        · exact helim _
        · split <;> exact nofun

/-- An expression fails on a number exactly if it is the number and the number cannot be read. -/
theorem fault?_eq_invalidNumber_iff {s : Scope} {x : Expr} {t : String} :
    fault? s x = some (.invalidNumber t) ↔ x.number? = some t ∧ Render.number? t = none := by
  rw [fault?, failure?_eq_some_iff, ← operand_eq_number_iff]
  cases x.operand with
  | path p =>
    refine iff_of_false (fun h => ?_) (fun h => nomatch h.1)
    refine resolve_ne_invalidNumber s p t ?_
    rw [Scope.value] at h
    cases hr : s.resolve p with
    | error e =>
      rw [hr] at h
      cases h
      rfl
    | ok j =>
      rw [hr] at h
      cases h
  | number u =>
    rw [Scope.value]
    cases hu : Render.number? u with
    | none =>
      simp only [Option.elim_none, Except.error.injEq, RenderError.invalidNumber.injEq,
        Operand.number.injEq]
      constructor
      · rintro rfl
        exact ⟨rfl, hu⟩
      · exact And.left
    | some n =>
      refine iff_of_false nofun ?_
      rintro ⟨h, ht⟩
      cases h
      rw [hu] at ht
      cases ht
  | _ => exact iff_of_false nofun fun h => nomatch h.1

/-- If all paths have values, an expression can only fail on a number. -/
theorem exists_number_of_fault? {s : Scope} {x : Expr} {e : RenderError}
    (hpaths : ∀ p, x.operand = .path p → ∃ j, s.resolve p = .ok j) (h : fault? s x = some e) :
    ∃ t, e = .invalidNumber t := by
  rw [fault?, failure?_eq_some_iff] at h
  cases hx : x.operand with
  | path p =>
    obtain ⟨j, hj⟩ := hpaths p hx
    rw [hx, Scope.value, hj] at h
    cases h
  | number t =>
    rw [hx, Scope.value] at h
    cases hn : Render.number? t with
    | none =>
      rw [hn] at h
      cases h
      exact ⟨t, rfl⟩
    | some n =>
      rw [hn] at h
      cases h
  | _ =>
    rw [hx] at h
    cases h

section

variable {body : List Statement} {t : String}

theorem mem_numbers_of_outcome {s : Scope} (h : outcome s body = .error (.invalidNumber t)) :
    t ∈ numbers body ∧ Render.number? t = none := by
  rcases fault_of_outcome h with h | ⟨u, m, -, h⟩
  · obtain ⟨x, hx, hfault⟩ := List.exists_of_findSome?_eq_some h
    obtain ⟨ht, hnone⟩ := fault?_eq_invalidNumber_iff.1 hfault
    exact ⟨List.mem_filterMap.2 ⟨x, hx, ht⟩, hnone⟩
  · cases h

theorem outcome_ne_ok (ht : t ∈ numbers body) (hnone : Render.number? t = none) (s : Scope)
    (text : String) : outcome s body ≠ .ok text := by
  intro h
  obtain ⟨x, hx, hxt⟩ := List.mem_filterMap.1 ht
  have hfault := List.findSome?_eq_none_iff.1 (fault_of_outcome_ok h) x hx
  rw [fault?_eq_invalidNumber_iff.2 ⟨hxt, hnone⟩] at hfault
  cases hfault

theorem exists_invalidNumber (ht : t ∈ numbers body) (hnone : Render.number? t = none) :
    ∃ s u, outcome s body = .error (.invalidNumber u) := by
  obtain ⟨s, htotal, hs⟩ := exists_scope (exprs body)
  cases ho : outcome s body with
  | ok text => exact absurd ho (outcome_ne_ok ht hnone s text)
  | error e =>
    have hfault := (fault_of_outcome ho).resolve_right (htotal.not_raises e)
    obtain ⟨x, hx, hfault⟩ := List.exists_of_findSome?_eq_some hfault
    obtain ⟨u, rfl⟩ := exists_number_of_fault? (hs x hx) hfault
    exact ⟨s, u, ho⟩

end

/-- A template never fails on a number exactly if all its numbers can be read; with one that cannot
be, it renders in no scope. Its numbers are groups of digits with points between them, behind a
minus or not, and those with no more than 308 digits in front of the point can be read exactly if
they are a JSON numeral. -/
theorem numbers_evaluate_iff (src : Source) (names : ClassNames) :
    let body := (src.parse names).tree.body names.execute
    ((∀ s t, outcome s body ≠ .error (.invalidNumber t)) ↔
      ∀ t ∈ numbers body, (Render.number? t).isSome = true) ∧
    ((∃ t ∈ numbers body, Render.number? t = none) → ∀ s text, outcome s body ≠ .ok text) ∧
    ∀ t ∈ numbers body, ∃ negative whole groups, (∀ g ∈ whole :: groups, Digits g) ∧
      t = String.ofList (groupText negative whole groups) ∧
      ((Render.number? t).isSome = true → IsNumeral whole groups) ∧
      (whole.length ≤ Decimal.Magnitude.maxPower → IsNumeral whole groups →
        (Render.number? t).isSome = true) := by
  intro body
  refine ⟨⟨fun h t ht => ?_, fun h s t ht => ?_⟩, ?_, fun t ht => ?_⟩
  · by_contra hnone
    rw [Option.not_isSome_iff_eq_none] at hnone
    obtain ⟨s, u, hu⟩ := exists_invalidNumber ht hnone
    exact h s u hu
  · obtain ⟨hmem, hnone⟩ := mem_numbers_of_outcome ht
    have := h t hmem
    rw [hnone] at this
    cases this
  · rintro ⟨t, ht, hnone⟩ s text
    exact outcome_ne_ok ht hnone s text
  · obtain ⟨negative, whole, groups, hg, rfl⟩ := spelled_of_mem_numbers ht
    exact ⟨negative, whole, groups, hg, rfl, isNumeral_of_isSome hg,
      fun hl => (isSome_number?_iff hg hl).2⟩

/-- A number with a zero in front of its digits is translated without a diagnostic and cannot be
read. -/
theorem leading_zero_fails :
    ¬ ∀ (src : Source) (names : ClassNames), (src.parse names).diagnostics = [] →
      (∀ t ∈ numbers ((src.parse names).tree.body names.execute),
        t.length ≤ Decimal.Magnitude.maxPower) →
      ∀ s t, outcome s ((src.parse names).tree.body names.execute) ≠
        .error (.invalidNumber t) := by
  intro h
  have hdigits : ∀ g ∈ [['0', '1']], Digits g := by
    intro g hg
    rw [List.mem_singleton.1 hg]
    exact ⟨nofun, List.all_eq_true.1 (by decide)⟩
  have hzero : Surface (.number "01") ['0', '1'] := .number false hdigits
  have hblanks : Blanks [] := fun x hx => nomatch hx
  let src : Source := ⟨'@' :: inParens [] ['0', '1'] [], "page"⟩
  obtain ⟨hdiagnostics, hbody⟩ : (src.parse {}).diagnostics = [] ∧
      (src.parse {}).tree.body ({} : ClassNames).execute =
        [.pragma (.line 1 "page"), .write (.number "01") 0, .pragma .hidden] :=
    writesAlone_of_yields (.inl rfl) rfl
      (fun at_ c k hc _ => hzero.directive hblanks hblanks hc at_) "page" {}
  have hnumbers : numbers ((src.parse {}).tree.body ({} : ClassNames).execute) = ["01"] := by
    rw [hbody]
    rfl
  have hmem : "01" ∈ numbers ((src.parse {}).tree.body ({} : ClassNames).execute) := by
    rw [hnumbers]
    exact List.mem_singleton_self _
  obtain ⟨s, t, ht⟩ := exists_invalidNumber hmem (by decide)
  refine h src {} hdiagnostics ?_ s t ht
  rw [hnumbers]
  decide

end Code
end Sigil
