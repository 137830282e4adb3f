import Sigil.Template.Cursor
import Sigil.Template.Diagnostic
import Sigil.Text.Blank

/-!
# Directives

The expression that follows an `@`: a member path, one of the words `true`, `false` and `null`, a
helper `Raw(…)`, `Encode(…)` or `Url(…)`, or an expression in parentheses, which may also be a
string or a number. Reading one gives the expression and the place after it, or exactly one fault.
The main statement is `length_of_directive`: what is read is at least one character.
-/

namespace Sigil.Template

open Text

def nameEnd (c : Cursor) : Cursor := c.skipWhile isNamePart

/-- Past a name and the parenthesis after it, less is left to read. -/
theorem length_next_nameEnd_lt {c : Cursor} {r : List Char} (h : (nameEnd c).rest = '(' :: r) :
    (nameEnd c).next.rest.length < c.rest.length :=
  Nat.lt_of_lt_of_le (Cursor.length_next_lt (by simp [h])) (Cursor.length_skipWhile ..)

/-- How many characters a member path takes, or what is left of one: the rest of a name, and
names with a point in front of each. -/
def pathLength : List Char → Nat
  | [] => 0
  | '.' :: x :: r => if isNameStart x then pathLength r + 2 else 0
  | c :: r => if isNamePart c then pathLength r + 1 else 0

/-- How many characters of a number follow its first one: digits, and points in front of digits. -/
def numberTail : List Char → Nat
  | [] => 0
  | c :: r =>
    if c.isDigit || (c == '.' && (r.head?.any Char.isDigit)) then numberTail r + 1 else 0

def unescaped (c : Char) : Char :=
  if c = 'n' then '\n' else if c = 't' then '\t' else if c = 'r' then '\r' else c

/-- The contents of a string after its opening quote, and how many characters it takes with its
closing quote. -/
def stringBody : List Char → Option (List Char × Nat)
  | [] => none
  | '"' :: _ => some ([], 1)
  | ['\\'] => none
  | '\\' :: c :: r => (stringBody r).map fun (cs, n) => (unescaped c :: cs, n + 2)
  | c :: r => (stringBody r).map fun (cs, n) => (c :: cs, n + 1)

/-- An expression and the place after it, or the fault that was found. -/
abbrev Reading := Except Fault (Expr × Cursor)

/-- The place after a closing parenthesis, blanks before it skipped. -/
def closeParen (c : Cursor) : Except Fault Cursor :=
  let c := c.skipWhile isAsciiBlank
  match c.rest with
  | ')' :: _ => .ok c.next
  | _ => .error ⟨.expectedCloseParen, c.offset⟩

/-- The string whose opening quote is here. -/
def readString (c : Cursor) : Reading :=
  match stringBody c.next.rest with
  | some (cs, n) => .ok (.str (String.ofList cs), c.next.advance n)
  | none => .error ⟨.unterminatedString, c.offset⟩

/-- The number whose sign or first digit is here. -/
def readNumber (c : Cursor) : Expr × Cursor :=
  let e := c.next.advance (numberTail c.next.rest)
  (.number (String.ofList (c.between e)), e)

def readPath (c : Cursor) : Expr × Cursor :=
  let e := c.advance (pathLength c.rest)
  (.path (String.ofList (c.between e)), e)

inductive Helper where
  | raw
  | encode
  | url
  deriving DecidableEq, Repr

def Helper.ofName? (name : List Char) : Option Helper :=
  if name = ['R', 'a', 'w'] then some .raw
  else if name = ['E', 'n', 'c', 'o', 'd', 'e'] then some .encode
  else if name = ['U', 'r', 'l'] then some .url
  else none

/-- A helper applied to the argument that starts at offset `at_`. -/
def Helper.apply (h : Helper) (at_ : Nat) (arg : Expr) : Except Fault Expr :=
  match h, arg with
  | .raw, e => .ok (.raw e)
  | .encode, e => .ok (.encode e)
  | .url, .str path => .ok (.url path)
  | .url, _ => .error ⟨.urlExpectsString, at_⟩

/-- The expression that a word stands for. -/
def keyword? (name : List Char) : Option Expr :=
  if name = ['t', 'r', 'u', 'e'] then some (.bool true)
  else if name = ['f', 'a', 'l', 's', 'e'] then some (.bool false)
  else if name = ['n', 'u', 'l', 'l'] then some .null
  else none

/-- Whether a number starts with `c` before `r`. -/
def startsNumber (c : Char) (r : List Char) : Bool :=
  c.isDigit || (c == '-' && r.head?.any Char.isDigit)

mutual

/-- The expression whose first name is here. -/
def readNamed (c : Cursor) : Reading :=
  let e := nameEnd c
  let name := c.between e
  match keyword? name with
  | some x => .ok (x, e)
  | none =>
    match Helper.ofName? name, h : e.rest with
    | some f, '(' :: _ =>
      have : e.next.rest.length < c.rest.length :=
        Nat.lt_of_lt_of_le (Cursor.length_next_lt (by simp [h])) (Cursor.length_skipWhile ..)
      match readExpr e.next with
      | .error fault => .error fault
      | .ok (x, d) =>
        match closeParen d with
        | .error fault => .error fault
        | .ok d => (f.apply e.next.offset x).map fun x => (x, d)
    | _, _ => .ok (readPath c)
termination_by (c.rest.length, 0)
decreasing_by exact Prod.Lex.left _ _ this

/-- The expression that starts here, blanks before it skipped. -/
def readExpr (c : Cursor) : Reading :=
  let d := c.skipWhile isAsciiBlank
  have : d.rest.length ≤ c.rest.length := Cursor.length_skipWhile ..
  match d.rest with
  | [] => .error ⟨.emptyExpression, d.offset⟩
  | x :: r =>
    if x = '"' then readString d
    else if startsNumber x r then .ok (readNumber d)
    else if isNameStart x then readNamed d
    else if x = ')' then .error ⟨.emptyExpression, d.offset⟩
    else .error ⟨.unexpectedCharacter, d.offset⟩
termination_by (c.rest.length, 1)
decreasing_by
  exact (Nat.lt_or_eq_of_le this).elim (Prod.Lex.left _ _)
    fun h => h ▸ Prod.Lex.right _ Nat.zero_lt_one

end

/-- The directive whose `@` stands at offset `at_`, in front of the cursor. -/
def directive (at_ : Nat) (c : Cursor) : Reading :=
  match c.rest with
  | [] => .error ⟨.emptyExpression, at_⟩
  | x :: _ =>
    if x = '(' then
      match readExpr c.next with
      | .error fault => .error fault
      | .ok (e, d) => (closeParen d).map fun d => (e, d)
    else if isNameStart x then readNamed c
    else .error ⟨.emptyExpression, at_⟩

/-! ## Progress -/

theorem length_of_closeParen {c d : Cursor} (h : closeParen c = .ok d) :
    d.rest.length ≤ c.rest.length := by
  unfold closeParen at h
  simp only at h
  split at h
  · cases h
    exact Nat.le_trans (Cursor.length_next _) (Cursor.length_skipWhile ..)
  · cases h

theorem length_of_readString {c d : Cursor} {x : Expr} (h : readString c = .ok (x, d)) :
    d.rest.length ≤ c.rest.length := by
  unfold readString at h
  split at h
  · cases h
    exact Nat.le_trans (Cursor.length_advance _ _) (Cursor.length_next _)
  · cases h

theorem length_readNumber (c : Cursor) : (readNumber c).2.rest.length ≤ c.rest.length :=
  Nat.le_trans (Cursor.length_advance _ _) (Cursor.length_next _)

theorem length_readPath (c : Cursor) : (readPath c).2.rest.length ≤ c.rest.length :=
  Cursor.length_advance _ _

theorem length_of_reading (n : Nat) :
    (∀ {c d : Cursor} {x : Expr}, c.rest.length < n → readNamed c = .ok (x, d) →
      d.rest.length ≤ c.rest.length) ∧
    (∀ {c d : Cursor} {x : Expr}, c.rest.length < n → readExpr c = .ok (x, d) →
      d.rest.length ≤ c.rest.length) := by
  induction n with
  | zero => exact ⟨fun h => absurd h (Nat.not_lt_zero _), fun h => absurd h (Nat.not_lt_zero _)⟩
  | succ n ih =>
    have named : ∀ {c d : Cursor} {x : Expr}, c.rest.length < n + 1 →
        readNamed c = .ok (x, d) → d.rest.length ≤ c.rest.length := by
      intro c d x hn h
      rw [readNamed] at h
      simp only at h
      split at h
      · cases h
        exact Cursor.length_skipWhile ..
      · split at h
        · rename_i he
          have hlt := length_next_nameEnd_lt he
          split at h
          · cases h
          · rename_i y e hy
            have hy := ih.2 (by omega) hy
            split at h
            · cases h
            · rename_i d' hd
              have hd := length_of_closeParen hd
              rw [Except.map.eq_def] at h
              split at h
              · cases h
              · cases h
                omega
        · simp only [Except.ok.injEq] at h
          have := length_readPath c
          rwa [h] at this
    refine ⟨named, fun {c d x} hn h => ?_⟩
    have hs := Cursor.length_skipWhile isAsciiBlank c
    rw [readExpr] at h
    split at h
    · cases h
    · split at h
      · exact Nat.le_trans (length_of_readString h) hs
      · split at h
        · simp only [Except.ok.injEq] at h
          have := length_readNumber (c.skipWhile isAsciiBlank)
          rw [h] at this
          exact Nat.le_trans this hs
        · split at h
          · exact Nat.le_trans (named (by omega) h) hs
          · split at h <;> cases h

theorem length_of_readNamed {c d : Cursor} {x : Expr} (h : readNamed c = .ok (x, d)) :
    d.rest.length ≤ c.rest.length :=
  (length_of_reading (c.rest.length + 1)).1 (Nat.lt_succ_self _) h

theorem length_of_readExpr {c d : Cursor} {x : Expr} (h : readExpr c = .ok (x, d)) :
    d.rest.length ≤ c.rest.length :=
  (length_of_reading (c.rest.length + 1)).2 (Nat.lt_succ_self _) h

theorem length_of_directive {at_ : Nat} {c d : Cursor} {x : Expr}
    (h : directive at_ c = .ok (x, d)) : d.rest.length ≤ c.rest.length := by
  unfold directive at h
  split at h
  · cases h
  · split at h
    · split at h
      · cases h
      · rename_i e d' he
        have h₁ := length_of_readExpr he
        rw [Except.map.eq_def] at h
        split at h
        · cases h
        · rename_i d'' hd
          cases h
          exact Nat.le_trans (Nat.le_trans (length_of_closeParen hd) h₁) (Cursor.length_next _)
    · split at h
      · exact length_of_readNamed h
      · cases h

end Sigil.Template
