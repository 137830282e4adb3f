import Sigil.Json.Numeral
import Sigil.Text.Hex

/-!
# Reading JSON

`Written.read` reads a text into the tree of what is written there; `Written.value?` is the value
that the tree denotes. The two steps differ in what they refuse: a tree may hold a numeral that is
out of range, a string with an unpaired surrogate and any depth of nesting, a value may not. Parts
of a document that nobody asks for are therefore only read, never valued.
-/

namespace Sigil

namespace Json

/-- What a JSON text has written. A string that holds an unpaired surrogate spells no text. -/
inductive Written where
  | null
  | bool (b : Bool)
  | num (n : Numeral)
  | str (s : Option String)
  | arr (items : List Written)
  | obj (members : List (Option String × Written))
  deriving Inhabited

namespace Written

/-- Space, tab, line feed and carriage return. -/
def isSpace (c : Char) : Bool := c == ' ' || c == '\n' || c == '\t' || c == '\r'

def skip (s : List Char) : List Char := s.dropWhile isSpace

theorem length_skip (s : List Char) : (skip s).length ≤ s.length :=
  Text.length_dropWhile_le isSpace s

/-- What follows a reading step is shorter than what it started from. -/
abbrev Rest (s : List Char) : Type := { r : List Char // r.length < s.length }

/-- The code unit that four hexadecimal digits spell. -/
def unit? (a b c d : Char) : Option Nat := Text.ofHex? [a, b, c, d]

def letter? (c : Char) : Option Char :=
  if c = '"' then some '"'
  else if c = '\\' then some '\\'
  else if c = '/' then some '/'
  else if c = 'b' then some '\x08'
  else if c = 'f' then some '\x0c'
  else if c = 'n' then some '\n'
  else if c = 'r' then some '\r'
  else if c = 't' then some '\t'
  else none

/-- A UTF-16 code unit or a character, in the order of the text. -/
inductive Piece where
  | char (c : Char)
  | unit (n : Nat)

/-- The pieces of a string up to its closing quote, and what follows it. -/
def pieces : List Char → Option (List Piece × List Char)
  | [] => none
  | '"' :: r => some ([], r)
  | '\\' :: 'u' :: a :: b :: c :: d :: r =>
    match unit? a b c d with
    | some n => (pieces r).map fun (ps, t) => (.unit n :: ps, t)
    | none => none
  | '\\' :: c :: r =>
    match letter? c with
    | some c => (pieces r).map fun (ps, t) => (.char c :: ps, t)
    | none => none
  | c :: r =>
    if c.toNat < 32 ∨ c = '\\' then none
    else (pieces r).map fun (ps, t) => (.char c :: ps, t)

theorem exists_of_map_cons {α β : Type} {x : Option (List α × β)} {a : α} {as : List α} {b : β}
    (h : (x.map fun (as, b) => (a :: as, b)) = some (as, b)) : ∃ as', x = some (as', b) := by
  obtain ⟨⟨as', b'⟩, hx, he⟩ := Option.map_eq_some_iff.1 h
  cases he
  exact ⟨as', hx⟩

theorem length_of_pieces {s t : List Char} {ps : List Piece} (h : pieces s = some (ps, t)) :
    t.length < s.length := by
  fun_induction pieces s generalizing ps with
  | case1 => cases h
  | case2 r =>
    simp only [Option.some.injEq, Prod.mk.injEq] at h
    simp [h.2]
  | case3 a b c d r n hn ih =>
    obtain ⟨ps', hp⟩ := exists_of_map_cons h
    exact Nat.lt_trans (ih hp) (by simp only [List.length_cons]; omega)
  | case4 => cases h
  | case5 c r _ c' hc ih =>
    obtain ⟨ps', hp⟩ := exists_of_map_cons h
    exact Nat.lt_trans (ih hp) (by simp only [List.length_cons]; omega)
  | case6 => cases h
  | case7 => cases h
  | case8 c r _ _ _ _ ih =>
    obtain ⟨ps', hp⟩ := exists_of_map_cons h
    exact Nat.lt_trans (ih hp) (by simp only [List.length_cons]; omega)

/-- The text of some pieces; a surrogate must stand in a pair. -/
def spell : List Piece → Option (List Char)
  | [] => some []
  | .char c :: ps => (spell ps).map (c :: ·)
  | .unit n :: ps =>
    if 0xD800 ≤ n ∧ n ≤ 0xDBFF then
      match ps with
      | .unit m :: qs =>
        if 0xDC00 ≤ m ∧ m ≤ 0xDFFF then
          (spell qs).map (Char.ofNat (0x10000 + (n - 0xD800) * 0x400 + (m - 0xDC00)) :: ·)
        else none
      | _ => none
    else if 0xDC00 ≤ n ∧ n ≤ 0xDFFF then none
    else (spell ps).map (Char.ofNat n :: ·)

/-- A string after its opening quote. -/
def string? (s : List Char) : Option (Option String × Rest s) :=
  match h : pieces s with
  | some (ps, t) => some ((spell ps).map String.ofList, ⟨t, length_of_pieces h⟩)
  | none => none

/-- A rest of a rest. -/
def Rest.of {s t : List Char} (r : Rest t) (h : t.length ≤ s.length) : Rest s :=
  ⟨r.1, Nat.lt_of_lt_of_le r.2 h⟩

def word? (w : List Char) (hw : 0 < w.length) (s : List Char) : Option (Rest s) :=
  if h : w <+: s then
    some ⟨s.drop w.length, by
      have := h.length_le
      simp only [List.length_drop]
      omega⟩
  else none

mutual

/-- The value at the start of a text, blanks before it skipped. -/
def value (s : List Char) : Option (Written × Rest s) :=
  match h : skip s with
  | [] => none
  | c :: r =>
    have hs : r.length < s.length := by
      have := length_skip s
      rw [h] at this
      exact this
    if c = '{' then
      match h' : skip r with
      | '}' :: t =>
        some (.obj [], ⟨t, by have := length_skip r; rw [h'] at this; simp at this; omega⟩)
      | _ => (members r).map fun (ms, t) => (.obj ms, t.of (Nat.le_of_lt hs))
    else if c = '[' then
      match h' : skip r with
      | ']' :: t =>
        some (.arr [], ⟨t, by have := length_skip r; rw [h'] at this; simp at this; omega⟩)
      | _ => (items r).map fun (is, t) => (.arr is, t.of (Nat.le_of_lt hs))
    else if c = '"' then (string? r).map fun (x, t) => (.str x, t.of (Nat.le_of_lt hs))
    else
      have hc : (c :: r).length ≤ s.length := hs
      if c = 'n' then
        (word? ['n', 'u', 'l', 'l'] (by decide) (c :: r)).map fun t => (.null, t.of hc)
      else if c = 't' then
        (word? ['t', 'r', 'u', 'e'] (by decide) (c :: r)).map fun t => (.bool true, t.of hc)
      else if c = 'f' then
        (word? ['f', 'a', 'l', 's', 'e'] (by decide) (c :: r)).map fun t => (.bool false, t.of hc)
      else
        match h' : Numeral.read (c :: r) with
        | some (n, t) => some (.num n, ⟨t, Nat.lt_of_lt_of_le (Numeral.length_of_read h') hc⟩)
        | none => none
termination_by (s.length, 0)

/-- The items of an array that is not empty, up to its closing bracket. -/
def items (s : List Char) : Option (List Written × Rest s) :=
  match value s with
  | none => none
  | some (x, ⟨r, hr⟩) =>
    match h : skip r with
    | ',' :: t =>
      have ht : t.length < s.length := by
        have := length_skip r
        rw [h] at this
        simp at this
        omega
      (items t).map fun (xs, u) => (x :: xs, u.of (Nat.le_of_lt ht))
    | ']' :: t =>
      some ([x], ⟨t, by have := length_skip r; rw [h] at this; simp at this; omega⟩)
    | _ => none
termination_by (s.length, 1)

/-- The members of an object that is not empty, up to its closing brace. -/
def members (s : List Char) : Option (List (Option String × Written) × Rest s) :=
  match h₁ : skip s with
  | '"' :: s₁ =>
    have hs₁ : s₁.length < s.length := by
      have := length_skip s
      rw [h₁] at this
      exact this
    match string? s₁ with
    | none => none
    | some (k, ⟨s₂, hs₂⟩) =>
      match h₃ : skip s₂ with
      | ':' :: s₃ =>
        have hs₃ : s₃.length < s.length := by
          have := length_skip s₂
          rw [h₃] at this
          simp at this
          omega
        match value s₃ with
        | none => none
        | some (x, ⟨r, hr⟩) =>
          match h : skip r with
          | ',' :: t =>
            have ht : t.length < s.length := by
              have := length_skip r
              rw [h] at this
              simp at this
              omega
            (members t).map fun (xs, u) => ((k, x) :: xs, u.of (Nat.le_of_lt ht))
          | '}' :: t =>
            some ([(k, x)], ⟨t, by have := length_skip r; rw [h] at this; simp at this; omega⟩)
          | _ => none
      | _ => none
  | _ => none
termination_by (s.length, 1)

end

/-- What a whole text has written. -/
def read (s : List Char) : Option Written :=
  match value s with
  | some (x, ⟨r, _⟩) => if (skip r).isEmpty then some x else none
  | none => none

mutual

/-- The value denoted, with containers nested at most `depth` deep. -/
def value? (depth : Nat) : Written → Option Json
  | null => some .null
  | bool b => some (.bool b)
  | num n => n.number?.map .num
  | str s => s.map .str
  | arr xs =>
    match depth with
    | 0 => none
    | d + 1 => (values? d xs).map .arr
  | obj ms =>
    match depth with
    | 0 => none
    | d + 1 => (memberValues? d ms).map Json.ofMembers

def values? (depth : Nat) : List Written → Option (List Json)
  | [] => some []
  | x :: xs => do return (← value? depth x) :: (← values? depth xs)

def memberValues? (depth : Nat) : List (Option String × Written) → Option (List (String × Json))
  | [] => some []
  | (k, x) :: ms => do return (← k, ← value? depth x) :: (← memberValues? depth ms)

end

end Written

/-- How deep containers may nest in a value that is read. -/
def maxDepth : Nat := 127

def parse (s : String) : Option Json := do (← Written.read s.toList).value? maxDepth

end Json
end Sigil
