import Sigil.Template.ClassNames
import Sigil.Text.Quoted

/-!
# Calls in generated code

Every statement that writes becomes one call of a method of the class. URLs are resolved in front of
the call and bound to locals, numbered from left to right, which the call refers to.
`Statement.lines` is the text of all this.
-/

namespace Sigil.Code

open Template Text

inductive Term where
  | path (members : String)
  | str (text : String)
  | number (text : String)
  | bool (value : Bool)
  | null
  | raw (inner : Term)
  | encode (inner : Term)
  /-- The local that a resolved URL is bound to. -/
  | url (index : Nat)
  deriving DecidableEq, Repr

inductive Part where
  | literal (lead value : Placed)
  | dynamic (lead : Placed) (term : Term) (position : Nat)
  deriving DecidableEq, Repr

inductive Call where
  | literal (text : String)
  | write (term : Term)
  | attribute (name : String) (opening closing : Placed) (parts : List Part)
  deriving DecidableEq, Repr

/-- A call, and the URLs that are resolved for it. -/
structure Step where
  urls : List String
  call : Call
  deriving DecidableEq, Repr

/-! ## From statements -/

/-- The argument for an expression, and its URLs, which get locals from number `k` on. -/
def hoist (k : Nat) : Expr → Term × List String
  | .path p => (.path p, [])
  | .str s => (.str s, [])
  | .number s => (.number s, [])
  | .bool b => (.bool b, [])
  | .null => (.null, [])
  | .raw e => ((hoist k e).map .raw id)
  | .encode e => ((hoist k e).map .encode id)
  | .url p => (.url k, [p])

def hoistAll (k : Nat) : List Fragment → List Part × List String
  | [] => ([], [])
  | .literal lead value :: fs => (hoistAll k fs).map (.literal lead value :: ·) id
  | .dynamic lead e position :: fs =>
    let (t, us) := hoist k e
    let (ps, vs) := hoistAll (k + us.length) fs
    (.dynamic lead t position :: ps, us ++ vs)

/-- The call for a statement; pragmas and snippets have none. -/
def Step.ofStatement? : Statement → Option Step
  | .literal text _ => some ⟨[], .literal text⟩
  | .write e _ =>
    let (t, us) := hoist 0 e
    some ⟨us, .write t⟩
  | .attribute w =>
    let (ps, us) := hoistAll 0 w.fragments
    some ⟨us, .attribute w.name w.opening w.closing ps⟩
  | .pragma _ => none
  | .snippet _ => none

/-! ## Text -/

def urlLocal (k : Nat) : String := "__url" ++ toString k

def Term.text : Term → String
  | .path p => "expr_path(" ++ quote p ++ ")"
  | .str s => "expr_str(" ++ quote s ++ ")"
  | .number s => "expr_number(" ++ quote s ++ ")"
  | .bool b => "expr_bool(" ++ (if b then "true" else "false") ++ ")"
  | .null => "expr_null()"
  | .raw t => "raw(" ++ t.text ++ ")"
  | .encode t => "encode(" ++ t.text ++ ")"
  | .url k => "expr_str(&" ++ urlLocal k ++ ")"

/-- A placed text as two arguments. -/
def placedText (p : Placed) : String := quote p.text ++ ", " ++ toString p.position

def Part.text : Part → String
  | .literal lead value => "attr_literal(" ++ placedText lead ++ ", " ++ placedText value ++ ")"
  | .dynamic lead t position =>
    "attr_dynamic(" ++ placedText lead ++ ", " ++ t.text ++ ", " ++ toString position ++ ")"

def Call.text (n : ClassNames) : Call → String
  | .literal t => "self." ++ n.writeLiteral ++ "(" ++ quote t ++ ");"
  | .write t => "self." ++ n.write ++ "(" ++ t.text ++ ");"
  | .attribute name opening closing parts =>
    "self." ++ n.writeAttribute ++ "(" ++ quote name ++ ", (" ++ placedText opening ++ "), (" ++
      placedText closing ++ "), &[" ++ ", ".intercalate (parts.map Part.text) ++ "]);"

def bindingText (n : ClassNames) (k : Nat) (url : String) : String :=
  "let " ++ urlLocal k ++ " = self." ++ n.resolveUrl ++ "(" ++ quote url ++ ");"

def deeper (line : String) : String := "    " ++ line

/-- The lines of a call: the call alone, or a block that binds URLs first. -/
def Step.lines (n : ClassNames) (s : Step) : List String :=
  if s.urls.isEmpty then [s.call.text n]
  else
    ["\x7b"] ++ s.urls.mapIdx (fun k u => deeper (bindingText n k u)) ++
      [deeper (s.call.text n), "\x7d"]

def statementLines (n : ClassNames) (s : Statement) : List String :=
  match s with
  | .pragma (.line line file) => ["// line " ++ toString line ++ " " ++ quote file]
  | .snippet t => (Text.lines t.toList).map String.ofList
  | _ => (Step.ofStatement? s).elim [] (·.lines n)

end Sigil.Code
