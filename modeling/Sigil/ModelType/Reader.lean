import Sigil.ModelType.Basic
import Sigil.Text.Blank

/-!
# Reading model types

`ModelType.parse` reads the name of a type. Every text is a type: one that looks like none of the
other forms is a path. Parts are cut at separators outside all brackets; a closing bracket counts
against the opening ones even where they do not match.
-/

namespace Sigil.ModelType

open Text

/-- How much deeper a character leads into brackets. -/
def nesting (c : Char) : Int :=
  if c = '(' ∨ c = '[' ∨ c = '{' then 1
  else if c = ')' ∨ c = ']' ∨ c = '}' then -1
  else 0

/-- How much deeper a character leads into brackets and generic arguments. -/
def nestingAngled (c : Char) : Int :=
  if c = '<' then 1 else if c = '>' then -1 else nesting c

/-- The parts between separators outside all brackets, from a depth on. -/
def partsFrom (sep : Char) (depth : Int) : List Char → List (List Char)
  | [] => [[]]
  | c :: r =>
    if c = sep ∧ depth = 0 then [] :: partsFrom sep 0 r
    else
      match partsFrom sep (depth + nestingAngled c) r with
      | [] => [[c]]
      | p :: ps => (c :: p) :: ps

/-- The parts between separators outside all brackets. -/
def parts (sep : Char) (s : List Char) : List (List Char) := partsFrom sep 0 s

/-- The parts that are not blank. -/
def members (s : List Char) : List (List Char) :=
  (parts ',' s).filter fun m => !(trim m).isEmpty

/-- What stands before and after the first `<` outside all other brackets. -/
def openAngle? (depth : Int) : List Char → Option (List Char × List Char)
  | [] => none
  | c :: r =>
    if c = '<' ∧ depth = 0 then some ([], r)
    else (openAngle? (depth + nesting c) r).map fun (a, b) => (c :: a, b)

/-- Whether a segment of a path starts with a brace. -/
def isAnonymousPath (path : List Char) : Bool :=
  (pieces [':', ':'] (by simp) path).any fun p => startsWith (trimStart p) ['{']

/-- What stands between two characters at the ends. -/
def between? (first last : Char) (s : List Char) : Option (List Char) :=
  (after? [first] s).bind (before? [last] ·)

inductive Form where
  | dynamic
  | reference (mutable : Bool) (inner : List Char)
  | array (element length : List Char)
  | slice (element : List Char)
  | tuple (members : List (List Char))
  | path (path : List Char) (args : List (List Char))
  deriving Repr

def referenceForm (s : List Char) : Form :=
  let s := trimStart s
  match after? ['m', 'u', 't', ' '] s with
  | some inner => .reference true inner
  | none => .reference false s

def bracketForm (s : List Char) : Form :=
  match parts ';' s with
  | [element, length] => .array element (trim length)
  | _ => .slice s

def pathForm (s : List Char) : Form :=
  match openAngle? 0 s with
  | some (path, args) =>
    match before? ['>'] args with
    | some args => .path path (members args)
    | none => .path s []
  | none => .path s []

def form (s : List Char) : Form :=
  if s = ['d', 'y', 'n', 'a', 'm', 'i', 'c'] then .dynamic
  else
    match after? ['&'] s with
    | some r => referenceForm r
    | none =>
      match between? '[' ']' s with
      | some r => bracketForm r
      | none =>
        match between? '(' ')' s with
        | some r => .tuple (members r)
        | none => pathForm s

/-! ## Parts are shorter -/

theorem length_trim_le (s : List Char) : (trim s).length ≤ s.length := by
  unfold trim trimEnd dropEndWhile trimStart
  rw [List.length_reverse]
  refine Nat.le_trans (length_dropWhile_le _ _) ?_
  rw [List.length_reverse]
  exact length_dropWhile_le _ _

theorem length_le_of_mem_partsFrom {sep : Char} {depth : Int} {s m : List Char}
    (h : m ∈ partsFrom sep depth s) : m.length ≤ s.length := by
  induction s generalizing depth m with
  | nil => simp [partsFrom] at h; simp [h]
  | cons c r ih =>
    rw [partsFrom] at h
    split at h
    · rcases List.mem_cons.1 h with rfl | h
      · simp
      · exact Nat.le_succ_of_le (ih h)
    · split at h
      · simp_all
      · rename_i p ps hp
        rcases List.mem_cons.1 h with rfl | h
        · have := ih (hp ▸ List.mem_cons_self)
          simp only [List.length_cons]
          omega
        · exact Nat.le_succ_of_le (ih (hp ▸ List.mem_cons_of_mem _ h))

theorem length_le_of_mem_members {s m : List Char} (h : m ∈ members s) : m.length ≤ s.length :=
  length_le_of_mem_partsFrom (List.mem_filter.1 h).1

theorem length_of_before? {w s t : List Char} (h : before? w s = some t) :
    s.length = t.length + w.length := by
  obtain ⟨u, hu, rfl⟩ := Option.map_eq_some_iff.1 h
  have := length_of_after? hu
  simp only [List.length_reverse] at this ⊢
  omega

theorem length_of_between? {a b : Char} {s t : List Char} (h : between? a b s = some t) :
    s.length = t.length + 2 := by
  obtain ⟨u, hu, ht⟩ := Option.bind_eq_some_iff.1 h
  have := length_of_after? hu
  have := length_of_before? ht
  simp only [List.length_cons, List.length_nil] at *
  omega

theorem length_of_openAngle? {depth : Int} {s a b : List Char}
    (h : openAngle? depth s = some (a, b)) : s.length = a.length + b.length + 1 := by
  induction s generalizing depth a b with
  | nil => cases h
  | cons c r ih =>
    rw [openAngle?] at h
    split at h
    · cases h
      simp
    · obtain ⟨⟨a', b'⟩, ho, he⟩ := Option.map_eq_some_iff.1 h
      cases he
      have := ih ho
      simp only [List.length_cons]
      omega

def Form.inner : Form → List (List Char)
  | .dynamic => []
  | .reference _ t => [t]
  | .array e _ => [e]
  | .slice e => [e]
  | .tuple ms => ms
  | .path _ args => args

theorem length_lt_of_mem_referenceForm {s t : List Char} (h : t ∈ (referenceForm s).inner) :
    t.length ≤ s.length := by
  have hs : (trimStart s).length ≤ s.length := length_dropWhile_le _ _
  unfold referenceForm at h
  simp only at h
  split at h
  · rename_i inner hi
    have := length_of_after? hi
    simp only [Form.inner, List.mem_singleton] at h
    subst h
    omega
  · simp only [Form.inner, List.mem_singleton] at h
    subst h
    exact hs

theorem length_le_of_mem_bracketForm {s t : List Char} (h : t ∈ (bracketForm s).inner) :
    t.length ≤ s.length := by
  unfold bracketForm at h
  split at h
  · rename_i e l hp
    simp only [Form.inner, List.mem_singleton] at h
    subst h
    have ht : t ∈ parts ';' s := by simp [hp]
    exact length_le_of_mem_partsFrom ht
  · simp only [Form.inner, List.mem_singleton] at h
    subst h
    exact Nat.le_refl _

theorem length_lt_of_mem_pathForm {s t : List Char} (h : t ∈ (pathForm s).inner) :
    t.length < s.length := by
  unfold pathForm at h
  split at h
  · rename_i path args ho
    split at h
    · rename_i args' hb
      have := length_of_openAngle? ho
      have := length_of_before? hb
      have := length_le_of_mem_members (show t ∈ members args' from h)
      omega
    · simp [Form.inner] at h
  · simp [Form.inner] at h

theorem length_lt_of_mem_form {s t : List Char} (h : t ∈ (form s).inner) :
    t.length < s.length := by
  unfold form at h
  split at h
  · simp [Form.inner] at h
  · split at h
    · rename_i r hr
      have := length_of_after? hr
      have := length_lt_of_mem_referenceForm h
      simp only [List.length_singleton] at *
      omega
    · split at h
      · rename_i r hr
        have := length_of_between? hr
        have := length_le_of_mem_bracketForm h
        omega
      · split at h
        · rename_i r hr
          have := length_of_between? hr
          have := length_le_of_mem_members (show t ∈ members r from h)
          omega
        · exact length_lt_of_mem_pathForm h

theorem length_lt_of_mem_inner {s t : List Char} {f : Form} (hf : form (trim s) = f)
    (h : t ∈ f.inner) : t.length < s.length :=
  Nat.lt_of_lt_of_le (length_lt_of_mem_form (hf ▸ h)) (length_trim_le s)

def read (s : List Char) : ModelType :=
  match _h : form (trim s) with
  | .dynamic => .dynamic
  | .reference m t => .reference m (read t)
  | .array e l => .array (read e) (String.ofList l)
  | .slice e => .slice (read e)
  | .tuple ms => .tuple (ms.attach.map fun ⟨m, _⟩ => read m)
  | .path p args =>
    if isAnonymousPath p then .anonymous (String.ofList (trim s))
    else .named (String.ofList p) (args.attach.map fun ⟨a, _⟩ => read a)
termination_by s.length
decreasing_by all_goals exact length_lt_of_mem_inner _h (by simp_all [Form.inner])

def parse (s : String) : ModelType := read s.toList

end Sigil.ModelType
