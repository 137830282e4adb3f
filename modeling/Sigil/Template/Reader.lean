import Sigil.Template.AttributeValue
import Sigil.Template.ClassNames

/-!
# Reading templates

One forward scan of a template. Markup is collected as one literal run until a directive or an
attribute with an expression makes a statement. `scan` goes through the template, `tag` through the
attributes of a start tag, and `Source.parse` puts the statements into the class tree.
-/

namespace Sigil.Template

open Text

structure Draft where
  /-- Where the literal run starts that is not written yet. -/
  pending : Cursor
  body : List Statement
  faults : List Fault
  imports : List String

structure Source where
  text : List Char
  /-- The name that line pragmas give it. -/
  file : String

namespace Draft

def start (s : List Char) : Draft := ⟨Cursor.start s, [], [], []⟩

/-- The literal run written up to here. -/
def flush (d : Draft) (c : Cursor) : Draft :=
  let run := d.pending.placed c
  { d with
    pending := c
    body := if run.text.isEmpty then d.body else d.body ++ [.literal run.text run.position] }

/-- A new literal run started here. -/
def resume (d : Draft) (c : Cursor) : Draft := { d with pending := c }

def fault (d : Draft) (cause : Cause) (c : Cursor) : Draft :=
  { d with faults := d.faults ++ [⟨cause, c.offset⟩] }

/-- A statement between the pragmas for the line it comes from. -/
def emit (d : Draft) (src : Source) (c : Cursor) (s : Statement) : Draft :=
  { d with
    body := d.body ++
      [.pragma (.line (lineColumn src.text c.offset).1 src.file), s, .pragma .hidden] }

end Draft

def endOf? (word s : List Char) : Option Nat :=
  (cut? word s).map fun (a, _) => a.length + word.length

/-- How many characters there are up to the brace that closes `depth` open ones, or up to the
end. -/
def balancedLength : (depth : Nat) → List Char → Nat
  | _, [] => 0
  | depth, c :: r =>
    if c = '{' then balancedLength (depth + 1) r + 1
    else if c = '}' then if depth ≤ 1 then 1 else balancedLength (depth - 1) r + 1
    else balancedLength depth r + 1

def restOfLine (s : List Char) : List Char × Nat :=
  let line := s.takeWhile (· ≠ '\n')
  (line, min (line.length + 1) s.length)

/-- The import that a line names: trimmed, without semicolons at the end. -/
def importName (line : List Char) : List Char := trim (dropEndWhile (· == ';') (trim line))

/-- Goes on behind the import whose name starts here. -/
def readImport (d : Draft) (c : Cursor) : Draft × Cursor :=
  let (line, n) := restOfLine c.rest
  let name := importName line
  let e := c.advance n
  let d :=
    if name.isEmpty then d.fault .emptyExpression c
    else { d with imports := d.imports ++ [String.ofList name] }
  (d.resume e, e)

def commentEnd : List Char := ['*', '@']

def importWord : List Char := ['u', 's', 'i', 'n', 'g', ' ']

/-- Goes on behind the `@` that is here, or behind what it introduces. -/
def transition (src : Source) (d : Draft) (c : Cursor) : Draft × Cursor :=
  if c.afterWord then (d, c.next)
  else
    match c.next.rest with
    | '@' :: _ => ((d.flush c).resume c.next, c.advance 2)
    | '*' :: _ =>
      match endOf? commentEnd (c.advance 2).rest with
      | some n =>
        let e := (c.advance 2).advance n
        ((d.flush c).resume e, e)
      | none => (((d.flush c).fault .unterminatedComment c).resume c.toEnd, c.toEnd)
    | '{' :: _ =>
      let e := c.next.advance (balancedLength 0 c.next.rest)
      (((d.flush c).fault .codeBlockUnsupported c).resume e, e)
    | _ =>
      if startsWith c.next.rest importWord then
        readImport (d.flush c) (c.next.advance importWord.length)
      else
        match directive c.offset c.next with
        | .ok (x, e) => (((d.flush c).emit src c (.write x c.offset)).resume e, e)
        | .error f => ({ d with faults := d.faults ++ [f] }, c.next)

def isTagNamePart (c : Char) : Bool := c.isAlphanum || c == '-' || c == ':'

def endsAttributeName (c : Char) : Bool :=
  isAsciiBlank c || c == '=' || c == '>' || c == '/' || c == '"' || c == '\'' || c == '<' ||
    c == '@'

/-- An attribute value that has been read: a statement if it holds an expression, otherwise literal
text without the second half of each `@@`. -/
def Draft.attribute (d : Draft) (src : Source) (before name nameEnd opened quote : Cursor)
    (v : ValueDraft) : Draft :=
  if v.isDynamic then
    let w : AttributeWrite :=
      { name := String.ofList (name.between nameEnd)
        opening := before.placed opened
        closing := v.gap.placed quote.next
        fragments := v.fragments }
    ((d.flush before).emit src name (.attribute w)).resume quote.next
  else v.escapes.foldl (fun d e => (d.flush e).resume e.next) d

/-- Where a step through a tag leads: out of the tag, or to a place inside it. -/
inductive TagStep where
  | leave (d : Draft) (c : Cursor)
  | stay (d : Draft) (c : Cursor)

def quotedStep (src : Source) (d : Draft) (before name nameEnd value : Cursor) (quote : Char) :
    TagStep :=
  match readValue quote (.start value.next) value.next with
  | (v, none) => .leave { d with faults := d.faults ++ v.faults } before.toEnd
  | (v, some close) =>
    let d := { d with faults := d.faults ++ v.faults }
    .stay (d.attribute src before name nameEnd value.next close v) close.next

/-- Past the value that may follow an attribute's name. -/
def valueStep (src : Source) (d : Draft) (before name nameEnd : Cursor) : TagStep :=
  let equals := nameEnd.skipWhile isAsciiBlank
  if equals.rest.head? ≠ some '=' then .stay d nameEnd
  else
    let value := equals.next.skipWhile isAsciiBlank
    match value.rest with
    | [] => .stay d value
    | quote :: _ =>
      if quote ≠ '"' ∧ quote ≠ '\'' then .stay d value
      else quotedStep src d before name nameEnd value quote

/-- Past one attribute, or past a character that belongs to none. The tag ends at `>`, and at the
next `@` or `<` that is no part of an attribute. -/
def tagStep (src : Source) (d : Draft) (c : Cursor) : TagStep :=
  let name := c.skipWhile isAsciiBlank
  match name.rest with
  | [] => .leave d name
  | x :: _ =>
    if x = '>' then .leave d name.next
    else if x = '@' ∨ x = '<' then .leave d name
    else if x = '/' ∨ x = '"' ∨ x = '\'' ∨ x = '=' then .stay d name.next
    else valueStep src d c name (name.next.skipWhile (!endsAttributeName ·))

/-- How many characters are left behind a step. -/
def TagStep.left : TagStep → Nat
  | leave _ c => c.rest.length
  | stay _ c => c.rest.length

theorem left_quotedStep (src : Source) (d : Draft) (before name nameEnd value : Cursor)
    (quote : Char) :
    (quotedStep src d before name nameEnd value quote).left ≤ value.rest.length := by
  unfold quotedStep
  split
  · simp [TagStep.left]
  · rename_i v close h
    have hc := (length_of_readValue h).1
    have hn := Cursor.length_next close
    have hv := Cursor.length_next value
    simp only [TagStep.left]
    omega

theorem left_valueStep (src : Source) (d : Draft) (before name nameEnd : Cursor) :
    (valueStep src d before name nameEnd).left ≤ nameEnd.rest.length := by
  have he := Cursor.length_skipWhile isAsciiBlank nameEnd
  have hn := Cursor.length_next (nameEnd.skipWhile isAsciiBlank)
  have hv := Cursor.length_skipWhile isAsciiBlank (nameEnd.skipWhile isAsciiBlank).next
  unfold valueStep
  simp only
  split
  · exact Nat.le_refl _
  · split
    · exact Nat.le_trans hv (Nat.le_trans hn he)
    · split
      · exact Nat.le_trans hv (Nat.le_trans hn he)
      · exact Nat.le_trans (left_quotedStep ..) (Nat.le_trans hv (Nat.le_trans hn he))

/-- A step that stays in a tag takes a character. -/
theorem left_tagStep (src : Source) (d : Draft) (c : Cursor) :
    (tagStep src d c).left ≤ c.rest.length ∧
      ∀ {d' c'}, tagStep src d c = .stay d' c' → c'.rest.length < c.rest.length := by
  have hname := Cursor.length_skipWhile isAsciiBlank c
  unfold tagStep
  simp only
  split
  · exact ⟨hname, fun h => by cases h⟩
  · rename_i x r hx
    have hnext : (c.skipWhile isAsciiBlank).next.rest.length < c.rest.length :=
      Nat.lt_of_lt_of_le (Cursor.length_next_lt (hx ▸ List.cons_ne_nil x r)) hname
    split
    · exact ⟨Nat.le_of_lt hnext, fun h => by cases h⟩
    · split
      · exact ⟨hname, fun h => by cases h⟩
      · split
        · exact ⟨Nat.le_of_lt hnext, fun h => by cases h; exact hnext⟩
        · have hv := left_valueStep src d c (c.skipWhile isAsciiBlank)
            ((c.skipWhile isAsciiBlank).next.skipWhile (!endsAttributeName ·))
          have he := Cursor.length_skipWhile (!endsAttributeName ·) (c.skipWhile isAsciiBlank).next
          refine ⟨by omega, fun {d' c'} h => ?_⟩
          rw [h] at hv
          simp only [TagStep.left] at hv
          omega

/-- Goes through the attributes of a tag. -/
def attributes (src : Source) (d : Draft) (c : Cursor) : Draft × Cursor :=
  match h : tagStep src d c with
  | .leave d e => (d, e)
  | .stay d e =>
    have := (left_tagStep src _ c).2 h
    attributes src d e
termination_by c.rest.length

/-- Goes through the start tag whose `<` is here. -/
def tag (src : Source) (d : Draft) (c : Cursor) : Draft × Cursor :=
  attributes src d (c.next.skipWhile isTagNamePart)

/-- One step of the scan: over a character, a transition or a tag. -/
def step (src : Source) (d : Draft) (c : Cursor) : Draft × Cursor :=
  match c.rest with
  | '@' :: _ => transition src d c
  | '<' :: x :: _ => if x.isAlpha then tag src d c else (d, c.next)
  | _ => (d, c.next)

/-! ## Progress -/

theorem length_readImport (d : Draft) (c : Cursor) :
    (readImport d c).2.rest.length ≤ c.rest.length := Cursor.length_advance _ _

theorem length_transition {src : Source} {d : Draft} {c : Cursor} (h : c.rest ≠ []) :
    (transition src d c).2.rest.length < c.rest.length := by
  have hn := Cursor.length_next_lt h
  have h2 : (c.advance 2).rest.length ≤ c.next.rest.length := by
    simp only [Cursor.rest_advance, Cursor.rest_next, List.length_drop]
    omega
  unfold transition
  split
  · exact hn
  · split
    · exact Nat.lt_of_le_of_lt h2 hn
    · split
      · exact Nat.lt_of_le_of_lt (Nat.le_trans (Cursor.length_advance _ _) h2) hn
      · simp only [Cursor.rest_toEnd, List.length_nil]
        omega
    · exact Nat.lt_of_le_of_lt (Cursor.length_advance _ _) hn
    · split
      · exact Nat.lt_of_le_of_lt
          (Nat.le_trans (length_readImport _ _) (Cursor.length_advance _ _)) hn
      · split
        · rename_i x e hx
          exact Nat.lt_of_le_of_lt (length_of_directive hx) hn
        · exact hn

theorem length_attributes (src : Source) (d : Draft) (c : Cursor) :
    (attributes src d c).2.rest.length ≤ c.rest.length := by
  fun_induction attributes src d c with
  | case1 d c d' e h =>
    have := (left_tagStep src d c).1
    rwa [h] at this
  | case2 d c d' e h hlt ih => omega

theorem length_step {src : Source} {d : Draft} {c : Cursor} (h : c.rest ≠ []) :
    (step src d c).2.rest.length < c.rest.length := by
  have hn := Cursor.length_next_lt h
  unfold step
  split
  · exact length_transition h
  · split
    · exact Nat.lt_of_le_of_lt
        (Nat.le_trans (length_attributes _ _ _) (Cursor.length_skipWhile ..)) hn
    · exact hn
  · exact hn

/-- Scans a template from a place on. -/
def scan (src : Source) (d : Draft) (c : Cursor) : Draft :=
  if h : c.rest = [] then d.flush c
  else
    have : (step src d c).2.rest.length < c.rest.length := length_step h
    scan src (step src d c).1 (step src d c).2
termination_by c.rest.length

/-- The class that a template describes, and what is wrong with the template. -/
structure Parsed where
  tree : ClassTree
  diagnostics : List Diagnostic
  deriving DecidableEq

def scanned (src : Source) : Draft := scan src (.start src.text) (.start src.text)

/-- The class with some names that a template describes. -/
def Source.parse (src : Source) (names : ClassNames) : Parsed :=
  let d := scanned src
  let tree := names.tree d.body
  { tree := { tree with imports := tree.imports.insertAll d.imports }
    diagnostics := d.faults.map (Diagnostic.ofFault src.text) }

namespace Parsed

def hasErrors (t : Parsed) : Bool := t.diagnostics.any (·.severity = .error)

def errorCount (t : Parsed) : Nat := (t.diagnostics.filter (·.severity = .error)).length

end Parsed

/-- What reads templates: it tells the class with some names that a text describes. -/
abbrev Translator := String → ClassNames → Parsed

/-- The translator of markup with directives; `file` is what pragmas call the template. -/
def Translator.markup (file : String) : Translator := fun text names =>
  (Source.mk text.toList file).parse names

def syntaxErrorMessage (errors : Nat) : String := s!"template has {errors} syntax error(s)"

end Sigil.Template
