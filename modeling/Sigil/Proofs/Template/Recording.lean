import Sigil.Proofs.Template.Reading

/-!
# Faults on record

A reader of directives that puts its faults on record and then has no answer, in place of one whose
answer may be a fault. Each of its parts stops where another part has stopped. So it either answers
with an expression and has recorded nothing, or has no answer and has recorded one fault, however
deep the expression is (`runWith_directive`).
-/

namespace Sigil.Template.Recording

open Text

/-- A reader that records faults; one that has no answer stops what goes on with it. -/
abbrev Recorder (α : Type) : Type := OptionT (StateM (List Fault)) α

def record (f : Fault) : Recorder PUnit := modify (· ++ [f])

section

variable {α : Type}

/-- A fault is recorded, and there is no answer. -/
def stop (f : Fault) : Recorder α := do
  record f
  failure

/-- What a reader has recorded behind a log, and its answer. -/
def Recorder.runWith (x : Recorder α) (log : List Fault) : Option α × List Fault :=
  Id.run (StateT.run (OptionT.run x) log)

end

/-! ## The reader -/

def closeParen (c : Cursor) : Recorder Cursor := do
  let c := c.skipWhile isAsciiBlank
  if c.rest.head? = some ')' then return c.next else stop ⟨.expectedCloseParen, c.offset⟩

def string (c : Cursor) : Recorder (Expr × Cursor) :=
  match stringBody c.next.rest with
  | some (cs, n) => return (.str (String.ofList cs), c.next.advance n)
  | none => stop ⟨.unterminatedString, c.offset⟩

def apply (f : Helper) (at_ : Nat) (x : Expr) : Recorder Expr :=
  match f, x with
  | .raw, x => return .raw x
  | .encode, x => return .encode x
  | .url, .str path => return .url path
  | .url, _ => stop ⟨.urlExpectsString, at_⟩

mutual

def named (c : Cursor) : Recorder (Expr × Cursor) :=
  let e := nameEnd c
  let name := c.between e
  match keyword? name with
  | some x => return (x, e)
  | none =>
    match Helper.ofName? name, h : e.rest with
    | some f, '(' :: _ => do
      have : e.next.rest.length < c.rest.length :=
        Nat.lt_of_lt_of_le (Cursor.length_next_lt (by simp [h])) (Cursor.length_skipWhile ..)
      let (x, d) ← expression e.next
      let d ← closeParen d
      return (← apply f e.next.offset x, d)
    | _, _ => return readPath c
termination_by (c.rest.length, 0)
decreasing_by exact Prod.Lex.left _ _ this

def expression (c : Cursor) : Recorder (Expr × Cursor) :=
  let d := c.skipWhile isAsciiBlank
  have : d.rest.length ≤ c.rest.length := Cursor.length_skipWhile ..
  match d.rest with
  | [] => stop ⟨.emptyExpression, d.offset⟩
  | x :: r =>
    if x = '"' then string d
    else if startsNumber x r then return readNumber d
    else if isNameStart x then named d
    else if x = ')' then stop ⟨.emptyExpression, d.offset⟩
    else stop ⟨.unexpectedCharacter, d.offset⟩
termination_by (c.rest.length, 1)
decreasing_by
  exact (Nat.lt_or_eq_of_le this).elim (Prod.Lex.left _ _)
    fun h => h ▸ Prod.Lex.right _ Nat.zero_lt_one

end

/-- The directive whose `@` stands at offset `at_`, in front of the cursor. -/
def directive (at_ : Nat) (c : Cursor) : Recorder (Expr × Cursor) :=
  match c.rest with
  | [] => stop ⟨.emptyExpression, at_⟩
  | x :: _ =>
    if x = '(' then do
      let (x, d) ← expression c.next
      return (x, ← closeParen d)
    else if isNameStart x then named c
    else stop ⟨.emptyExpression, at_⟩

/-! ## Its answers and its records -/

section

variable {α : Type}

/-- The answer, or the fault on record. -/
def settled : Except Fault α → Recorder α
  | .ok a => return a
  | .error f => stop f

theorem closeParen_eq (c : Cursor) : closeParen c = settled (Template.closeParen c) := by
  unfold closeParen Template.closeParen
  simp only
  by_cases hclose : (c.skipWhile isAsciiBlank).rest.head? = some ')'
  · obtain ⟨r, hr⟩ := List.head?_eq_some_iff.1 hclose
    rw [if_pos hclose, hr]
    rfl
  · rw [if_neg hclose]
    split
    · rename_i r hr
      rw [hr] at hclose
      exact absurd rfl hclose
    · rfl

theorem string_eq (c : Cursor) : string c = settled (readString c) := by
  unfold string readString
  cases stringBody c.next.rest <;> rfl

theorem apply_eq (f : Helper) (at_ : Nat) (x : Expr) :
    apply f at_ x = settled (f.apply at_ x) := by
  cases f with
  | raw | encode => rfl
  | url => cases x <;> rfl

end

theorem named_eq_of {c : Cursor}
    (ih : ∀ d, d.rest.length < c.rest.length → expression d = settled (readExpr d)) :
    named c = settled (readNamed c) := by
  rw [named]
  simp only [between_nameEnd]
  split
  · rename_i x hk
    rw [readNamed_keyword hk]
    rfl
  · rename_i hk
    split
    · rename_i f r hf hr
      have hlt := length_next_nameEnd_lt hr
      rw [readNamed_helper hk hf hr, ih _ hlt]
      cases readExpr (nameEnd c).next with
      | error fault => rfl
      | ok y =>
        obtain ⟨y, d⟩ := y
        rw [settled, pure_bind, closeParen_eq]
        simp only
        cases Template.closeParen d with
        | error fault => rfl
        | ok d =>
          rw [settled, pure_bind, apply_eq]
          simp only
          cases f.apply (nameEnd c).next.offset y <;> rfl
    · rename_i hno
      rw [readNamed_path hk hno]
      rfl

theorem expression_eq (c : Cursor) : expression c = settled (readExpr c) := by
  rw [expression, readExpr]
  have hle := Cursor.length_skipWhile isAsciiBlank c
  cases hr : (c.skipWhile isAsciiBlank).rest with
  | nil => rfl
  | cons x r =>
    simp only
    by_cases hquote : x = '"'
    · rw [if_pos hquote, if_pos hquote, string_eq]
    rw [if_neg hquote, if_neg hquote]
    by_cases hnumber : startsNumber x r = true
    · rw [if_pos hnumber, if_pos hnumber]
      rfl
    rw [if_neg hnumber, if_neg hnumber]
    by_cases hname : isNameStart x = true
    · rw [if_pos hname, if_pos hname]
      exact named_eq_of fun d hlt =>
        have : d.rest.length < c.rest.length := Nat.lt_of_lt_of_le hlt hle
        expression_eq d
    rw [if_neg hname, if_neg hname]
    split <;> rfl
termination_by c.rest.length

theorem directive_eq (at_ : Nat) (c : Cursor) :
    directive at_ c = settled (Template.directive at_ c) := by
  unfold directive Template.directive
  cases hr : c.rest with
  | nil => rfl
  | cons x r =>
    simp only
    by_cases hparen : x = '('
    · rw [if_pos hparen, if_pos hparen, expression_eq]
      cases readExpr c.next with
      | error fault => rfl
      | ok y =>
        obtain ⟨y, d⟩ := y
        rw [settled, pure_bind, closeParen_eq]
        simp only
        cases Template.closeParen d <;> rfl
    rw [if_neg hparen, if_neg hparen]
    by_cases hname : isNameStart x = true
    · rw [if_pos hname, if_pos hname]
      exact named_eq_of fun d _ => expression_eq d
    · rw [if_neg hname, if_neg hname]
      rfl

/-- A directive that is read leaves the log as it is, and one that is not adds its one fault. -/
theorem runWith_directive (at_ : Nat) (c : Cursor) (log : List Fault) :
    (directive at_ c).runWith log =
      match Template.directive at_ c with
      | .ok x => (some x, log)
      | .error f => (none, log ++ [f]) := by
  rw [directive_eq]
  cases Template.directive at_ c <;> rfl

end Sigil.Template.Recording
