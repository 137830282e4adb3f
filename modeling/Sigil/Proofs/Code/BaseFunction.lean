import Sigil.Code.Program

/-!
# Functions of the base source

The arguments of generated calls are made by functions whose declarations stand in the base source.
`Term.evaluate?` makes the argument of a term with the numbers that it finds in the declarations of
the functions which the term's text calls. They are the numbers that the program of a unit passes
(`Step.evaluate?_eq_hostCall`).
-/

namespace Sigil.Code

open Template Text Render

/-- What follows the head of a declaration in the base source: parameters and body. -/
def declaration? (head : List Char) : Option (List Char) :=
  (operandFunctions ++ fragmentFunctions).findSome? fun g => after? head (Block.bodyCharsAt 0 g)

/-- What follows the head of the public function that an expression calls. -/
def calledBy? (text : String) : Option (List Char) :=
  declaration? ("pub fn ".toList ++ text.toList.takeWhile (· ≠ '(') ++ ['('])

/-- What follows the first occurrence of a word. -/
def behind? (word : String) (s : List Char) : Option (List Char) := (cut? word.toList s).map (·.2)

def numberBehind? (word : String) (s : List Char) : Option Nat :=
  (behind? word s).map fun r => Decimal.ofDigits (r.takeWhile Char.isDigit)

/-- The mode of an argument that no wrapper is around. -/
def unwrappedMode? : Option Nat :=
  (declaration? "const fn expr(".toList).bind (numberBehind? "mode: ")

/-- The number that stands behind a word in the function that a term calls. -/
def Term.numberBehind? (t : Term) (word : String) : Option Nat :=
  (calledBy? t.text).bind (Code.numberBehind? word)

/-- The argument that the functions of the base source make of a term. -/
def Term.evaluate? (urls : List String) (t : Term) : Option Argument :=
  match t with
  | .path p => return ⟨← t.numberBehind? "expr(", ← unwrappedMode?, Utf8.encode p⟩
  | .str s => return ⟨← t.numberBehind? "expr(", ← unwrappedMode?, Utf8.encode s⟩
  | .number s => return ⟨← t.numberBehind? "expr(", ← unwrappedMode?, Utf8.encode s⟩
  | .bool true => return ⟨← t.numberBehind? "if value \x7b ", ← unwrappedMode?, []⟩
  | .bool false => return ⟨← t.numberBehind? "else \x7b ", ← unwrappedMode?, []⟩
  | .null => return ⟨← t.numberBehind? "expr(", ← unwrappedMode?, []⟩
  | .raw u => return { ← u.evaluate? urls with mode := ← t.numberBehind? "value.mode = " }
  | .encode u => return { ← u.evaluate? urls with mode := ← t.numberBehind? "value.mode = " }
  | .url k => return ⟨← t.numberBehind? "expr(", ← unwrappedMode?, Utf8.encode (urls.getD k "")⟩

/-- Whether a function marks its result as text of the template. -/
def marksLiteral? (s : List Char) : Option Bool :=
  (behind? "literal: " s).map (startsWith · "true".toList)

/-- Whether the function that a part calls marks its result as text of the template. -/
def Part.isLiteral? (p : Part) : Option Bool := (calledBy? p.text).bind marksLiteral?

/-- The argument that the functions of the base source make of a part. -/
def Part.evaluate? (urls : List String) (p : Part) : Option FragmentArgument :=
  match p with
  | .literal lead value => do
    let kind ← (calledBy? p.text).bind (numberBehind? "value: expr(")
    return ⟨Utf8.encode lead.text, lead.position,
      ⟨kind, ← unwrappedMode?, Utf8.encode value.text⟩, value.position, ← p.isLiteral?⟩
  | .dynamic lead t position =>
    return ⟨Utf8.encode lead.text, lead.position, ← t.evaluate? urls, position, ← p.isLiteral?⟩

/-- The call to the host that a call makes with the functions of the base source. -/
def Call.evaluate? (urls : List String) : Call → Option Render.Call
  | .literal text => some (.literal (Utf8.encode text))
  | .write t => (t.evaluate? urls).map .write
  | .attribute name opening closing parts =>
    (parts.mapM (Part.evaluate? urls)).map
      (.attribute (Utf8.encode name) (Utf8.encode opening.text) opening.position
        (Utf8.encode closing.text) closing.position)

def Step.evaluate? (s : Step) : Option Render.Call := s.call.evaluate? (s.urls.map resolveUrl)

/-! ## The numbers agree -/

/-- What calls of functions begin with, and words that stand in the functions with the numbers behind
them. -/
def numberTable : List (String × String × Nat) :=
  [("expr_path(", "expr(", 0), ("expr_str(", "expr(", 1), ("expr_number(", "expr(", 2),
    ("expr_bool(", "if value \x7b ", 3), ("expr_bool(", "else \x7b ", 4), ("expr_null(", "expr(", 5),
    ("raw(", "value.mode = ", 1), ("encode(", "value.mode = ", 2),
    ("attr_literal(", "value: expr(", 1)]

/-- What calls of functions begin with, and whether the functions make texts of the template. -/
def literalTable : List (String × Bool) := [("attr_literal(", true), ("attr_dynamic(", false)]

/-- A text that begins a call: a name without parentheses and an opening one. -/
def BeginsCall (front : String) : Prop :=
  front.toList = front.toList.dropLast ++ ['('] ∧ '(' ∉ front.toList.dropLast

instance (front : String) : Decidable (BeginsCall front) :=
  inferInstanceAs (Decidable (front.toList = front.toList.dropLast ++ ['('] ∧
    '(' ∉ front.toList.dropLast))

-- One evaluation for everything: the text of the declarations is what takes time.
theorem tables_declared :
    (∀ x ∈ numberTable, BeginsCall x.1 ∧
      (declaration? ("pub fn ".toList ++ x.1.toList)).bind (numberBehind? x.2.1) = some x.2.2) ∧
    (∀ x ∈ literalTable, BeginsCall x.1 ∧
      (declaration? ("pub fn ".toList ++ x.1.toList)).bind marksLiteral? = some x.2) ∧
    unwrappedMode? = some 0 := by
  decide +kernel

/-- What is read in the function that an expression calls is read in its declaration. -/
theorem calledBy?_eq {front : String} (hf : BeginsCall front) (args : String) :
    calledBy? (front ++ args) = declaration? ("pub fn ".toList ++ front.toList) := by
  obtain ⟨hf, hn⟩ := hf
  have htake : (front ++ args).toList.takeWhile (· ≠ '(') = front.toList.dropLast := by
    rw [String.toList_append, hf, List.append_assoc, List.dropLast_concat,
      List.takeWhile_append_of_pos]
    · simp
    · intro c hc
      simpa using fun hp : c = '(' => hn (hp ▸ hc)
  rw [calledBy?, htake, List.append_assoc, ← hf]

theorem numberBehind?_calledBy? {text front args word : String} {n : Nat}
    (ht : text = front ++ args) (h : (front, word, n) ∈ numberTable) :
    (calledBy? text).bind (numberBehind? word) = some n := by
  obtain ⟨hf, hd⟩ := tables_declared.1 _ h
  rw [ht, calledBy?_eq hf, hd]

theorem marksLiteral?_calledBy? {text front args : String} {b : Bool} (ht : text = front ++ args)
    (h : (front, b) ∈ literalTable) : (calledBy? text).bind marksLiteral? = some b := by
  obtain ⟨hf, hd⟩ := tables_declared.2.1 _ h
  rw [ht, calledBy?_eq hf, hd]

/-- The functions of the base source give arguments their numbers. -/
theorem Term.evaluate?_eq_argument (urls : List String) (t : Term) :
    t.evaluate? urls = some (t.argument urls) := by
  induction t with
  | path p =>
    have h : (Term.path p).numberBehind? "expr(" = some 0 :=
      numberBehind?_calledBy? (String.append_assoc ..) (by simp [numberTable])
    rw [evaluate?, h, tables_declared.2.2]
    rfl
  | str s =>
    have h : (Term.str s).numberBehind? "expr(" = some 1 :=
      numberBehind?_calledBy? (String.append_assoc ..) (by simp [numberTable])
    rw [evaluate?, h, tables_declared.2.2]
    rfl
  | number s =>
    have h : (Term.number s).numberBehind? "expr(" = some 2 :=
      numberBehind?_calledBy? (String.append_assoc ..) (by simp [numberTable])
    rw [evaluate?, h, tables_declared.2.2]
    rfl
  | bool b =>
    cases b with
    | true =>
      have h : (Term.bool true).numberBehind? "if value \x7b " = some 3 :=
        numberBehind?_calledBy? (String.append_assoc ..) (by simp [numberTable])
      rw [evaluate?, h, tables_declared.2.2]
      rfl
    | false =>
      have h : (Term.bool false).numberBehind? "else \x7b " = some 4 :=
        numberBehind?_calledBy? (String.append_assoc ..) (by simp [numberTable])
      rw [evaluate?, h, tables_declared.2.2]
      rfl
  | null =>
    have htext : Term.null.text = "expr_null(" ++ ")" := rfl
    have h : Term.null.numberBehind? "expr(" = some 5 :=
      numberBehind?_calledBy? htext (by simp [numberTable])
    rw [evaluate?, h, tables_declared.2.2]
    rfl
  | raw u ih =>
    have h : (Term.raw u).numberBehind? "value.mode = " = some 1 :=
      numberBehind?_calledBy? (String.append_assoc ..) (by simp [numberTable])
    rw [evaluate?, ih, h]
    rfl
  | encode u ih =>
    have h : (Term.encode u).numberBehind? "value.mode = " = some 2 :=
      numberBehind?_calledBy? (String.append_assoc ..) (by simp [numberTable])
    rw [evaluate?, ih, h]
    rfl
  | url k =>
    have hfront : "expr_str(&" = "expr_str(" ++ "&" := rfl
    have htext : (Term.url k).text = "expr_str(" ++ ("&" ++ (urlLocal k ++ ")")) := by
      rw [Term.text, hfront, String.append_assoc, String.append_assoc]
    have h : (Term.url k).numberBehind? "expr(" = some 1 :=
      numberBehind?_calledBy? htext (by simp [numberTable])
    rw [evaluate?, h, tables_declared.2.2]
    rfl

/-- The functions of the base source make the parts of attributes. -/
theorem Part.evaluate?_eq_fragment (urls : List String) (p : Part) :
    p.evaluate? urls = some (p.fragment urls) := by
  cases p with
  | literal lead value =>
    have htext : (Part.literal lead value).text =
        "attr_literal(" ++ (placedText lead ++ (", " ++ (placedText value ++ ")"))) := by
      show "attr_literal(" ++ placedText lead ++ ", " ++ placedText value ++ ")" = _
      rw [String.append_assoc, String.append_assoc, String.append_assoc]
    have hkind : (calledBy? (Part.literal lead value).text).bind
        (numberBehind? "value: expr(") = some 1 :=
      numberBehind?_calledBy? htext (by simp [numberTable])
    have hliteral : (Part.literal lead value).isLiteral? = some true :=
      marksLiteral?_calledBy? htext (by simp [literalTable])
    rw [evaluate?, hkind, tables_declared.2.2, hliteral]
    rfl
  | dynamic lead t position =>
    have htext : (Part.dynamic lead t position).text =
        "attr_dynamic(" ++
          (placedText lead ++ (", " ++ (t.text ++ (", " ++ (toString position ++ ")"))))) := by
      show "attr_dynamic(" ++ placedText lead ++ ", " ++ t.text ++ ", " ++ toString position ++
        ")" = _
      rw [String.append_assoc, String.append_assoc, String.append_assoc, String.append_assoc,
        String.append_assoc]
    have hliteral : (Part.dynamic lead t position).isLiteral? = some false :=
      marksLiteral?_calledBy? htext (by simp [literalTable])
    rw [evaluate?, t.evaluate?_eq_argument, hliteral]
    rfl

theorem Step.evaluate?_eq_hostCall (s : Step) : s.evaluate? = some s.hostCall := by
  rw [evaluate?, hostCall]
  match s.call with
  | .literal text => rfl
  | .write t =>
    rw [Call.evaluate?, t.evaluate?_eq_argument]
    rfl
  | .attribute name opening closing parts =>
    have hparts : parts.mapM (Part.evaluate? (s.urls.map resolveUrl)) =
        some (parts.map (Part.fragment (s.urls.map resolveUrl))) := by
      rw [funext (Part.evaluate?_eq_fragment (s.urls.map resolveUrl))]
      exact List.mapM_pure
    rw [Call.evaluate?, hparts]
    rfl

end Sigil.Code
