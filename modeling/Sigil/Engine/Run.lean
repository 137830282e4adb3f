import Sigil.Engine.Basic

/-!
# Running compiled templates

A compiled template runs with a model of the type it was compiled for. Output goes to a sink in one
piece, and only if there is no error.
-/

namespace Sigil.Engine

open Code Library Render

/-- What a template runs with. -/
inductive Model where
  | none
  | dynamic (value : Json)
  | typed (type : ModelType) (value : Json)

namespace Model

/-- The declared type, if it says something. -/
def type? : Model → Option ModelType
  | none => Option.none
  | dynamic _ => Option.none
  | typed t _ => if t.isDynamic then Option.none else some t

def value : Model → Json
  | none => .null
  | dynamic v => v
  | typed _ v => v

end Model

/-- What text is written to; a closed sink takes none. -/
structure Sink where
  writes : List String := []
  closed : Bool := false
  deriving DecidableEq, Repr

/-- The sink with a text written, unless it is closed. -/
def Sink.write? (k : Sink) (text : String) : Option Sink :=
  if k.closed then none else some { k with writes := k.writes ++ [text] }

def Sink.text (k : Sink) : String := String.join k.writes

/-- How a missing model type is spelled. -/
def typeText (t : Option ModelType) : String := (t.getD .dynamic).text

namespace Compiled

def output (c : Compiled) (enc : Encoder) (m : Model) (b : Bag) : Except EngineError String :=
  if c.model ≠ m.type? then .error (.modelMismatch (typeText c.model) (typeText m.type?))
  else
    match c.type.program.execute Template.abiVersion ⟨m.value, b, enc⟩ with
    | .ok text => .ok text
    | .error e => .error (.render e)

def run (c : Compiled) (enc : Encoder) (k : Sink) (m : Model) (b : Bag) :
    Sink × Except EngineError Unit :=
  match c.output enc m b with
  | .error e => (k, .error e)
  | .ok text =>
    match k.write? text with
    | some k => (k, .ok ())
    | none => (k, .error (.render .write))

end Compiled

/-- Runs the outcome of an earlier compilation; a failure is told again. -/
def runOutcome (o : Except EngineError Compiled) (enc : Encoder) (k : Sink) (m : Model) :
    Sink × Except EngineError Unit :=
  match o with
  | .ok c => c.run enc k m ∅
  | .error e => (k, .error (.failed e))

/-- Compiles a template for the type of a model and runs it once. -/
def runOnce (e : Engine) (g : Registry) (className template : String) (k : Sink) (m : Model) :
    Attempt × Sink × Except EngineError Unit :=
  let a := e.compile g { className := className, template := template, model := m.type? }
  match a.result with
  | .ok c => (a, c.run e.encoder k m ∅)
  | .error err => (a, k, .error err)

end Sigil.Engine
