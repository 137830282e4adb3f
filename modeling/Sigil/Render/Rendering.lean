import Sigil.Render.Scope

/-!
# Renderings

A rendering collects the output of one template. Once an error is recorded, neither the output nor
the error changes, so a rendering ends with the whole output or with the first error.
-/

namespace Sigil.Render

/-- The output so far, and the first error. -/
structure Rendering where
  output : String := ""
  error : Option RenderError := none
  deriving DecidableEq, Repr, Inhabited

structure Piece where
  /-- The blanks in front. -/
  lead : String
  value : Value
  /-- Whether the value is text of the template, which is not encoded. -/
  literal : Bool

namespace Rendering

def hasFailed (r : Rendering) : Bool := r.error.isSome

def fail (r : Rendering) (e : RenderError) : Rendering :=
  match r.error with
  | some _ => r
  | none => { r with error := some e }

def literal (r : Rendering) (text : String) : Rendering :=
  match r.error with
  | some _ => r
  | none => { r with output := r.output ++ text }

/-- The text of a value, encoded; nothing for null. A panic of the encoder is caught around the whole
call and recorded there, and what the call has written before it stays. -/
def value (r : Rendering) (enc : Encoder) (v : Value) : Rendering :=
  match v.encode? enc with
  | some (.ok t) => r.literal t
  -- What the call would still write is lost either way: after an error nothing is written.
  | some (.error m) => r.fail (.panicked m)
  | none => r

/-- The value of an operand, or its error. -/
def write (r : Rendering) (s : Scope) (o : Operand) (m : Mode) : Rendering :=
  if r.hasFailed then r
  else
    match s.evaluate o m with
    | .ok v => r.value s.encoder v
    | .error e => r.fail e

/-- What a piece shows: nothing for null and false, the attribute's name for true. -/
def shown? (name : String) (v : Value) : Option Value :=
  if v.isNull then none
  else
    match v.bool? with
    | some false => none
    | some true => some (.str name)
    | none => some v

/-- The pieces of an attribute, the first shown one behind `opening` and the others behind their own
blanks. Tells whether one was shown. -/
def pieces (r : Rendering) (enc : Encoder) (name opening : String) :
    (shown : Bool) → List Piece → Rendering × Bool
  | shown, [] => (r, shown)
  | shown, p :: ps =>
    match shown? name p.value with
    | none => pieces r enc name opening shown ps
    | some v =>
      let r := r.literal (if shown then p.lead else opening)
      let r := if p.literal then v.display?.elim r r.literal else r.value enc v
      pieces r enc name opening true ps

/-- An attribute. Without pieces it is its opening and its closing; otherwise it is left out when no
piece is shown. -/
def writeAttribute (r : Rendering) (enc : Encoder) (name opening closing : String)
    (ps : List Piece) : Rendering :=
  if r.hasFailed then r
  else if ps.isEmpty then (r.literal opening).literal closing
  else
    match r.pieces enc name opening false ps with
    | (r, true) => r.literal closing
    | (r, false) => r

/-- The whole output, or the first error. -/
def finish (r : Rendering) : Except RenderError String :=
  match r.error with
  | some e => .error e
  | none => .ok r.output

theorem literal_of_hasFailed {r : Rendering} (h : r.hasFailed = true) (t : String) :
    r.literal t = r := by
  unfold literal
  split
  · rfl
  · simp_all [hasFailed]

theorem fail_of_hasFailed {r : Rendering} (h : r.hasFailed = true) (e : RenderError) :
    r.fail e = r := by
  unfold fail
  split
  · rfl
  · simp_all [hasFailed]

end Rendering
end Sigil.Render
