import Sigil.ModelType.Basic
import Sigil.Template.Reader
import Sigil.Code.Base

/-!
# Class specifications

What a template class is generated from: its name, its template, the imports it starts with, and
maybe a base type and a model type. `ClassSpec.check` says what makes a specification unusable;
`ClassSpec.generate` hands its template to a translator and returns the class with the imports that
the template adds.
-/

namespace Sigil.Code

open Template

structure ClassSpec where
  className : String
  template : String
  imports : NameSet := ∅
  base : Option BaseType := none
  model : Option ModelType := none
  deriving DecidableEq, Inhabited

/-- What makes a specification unusable. -/
inductive SpecError where
  | noClassName
  | badClassName (name : String)
  | anonymousModel (type : String)
  deriving DecidableEq, Repr

def SpecError.message : SpecError → String
  | noClassName => "invalid type context: class name is required"
  | badClassName name =>
    "invalid type context: class name `" ++ name ++ "` is not a valid identifier"
  | anonymousModel type =>
    "anonymous model types cannot be compiled: `" ++ type ++
      "`; compile without a model type to use a dynamic model instead"

def classNamespace : String := "CompiledTemplates.Dynamic"

/-- Letters, digits and underscores behind a letter or underscore, but not one underscore alone. -/
def isIdentifier (name : List Char) : Bool :=
  match name with
  | [] => false
  | c :: r => isNameStart c && r.all isNamePart && name ≠ ['_']

namespace ClassSpec

def fullName (s : ClassSpec) : String := classNamespace ++ "." ++ s.className

/-- The declared base type, or the one that suits the model type. -/
def effectiveBase (s : ClassSpec) : BaseType :=
  match s.base, s.model with
  | some b, _ => b
  | none, some m => if m.isDynamic then .modelFree else .ofModel
  | none, none => .modelFree

def effectiveModel (s : ClassSpec) : ModelType := s.model.getD .dynamic

/-- The first thing wrong with a specification, if there is one. -/
def check (s : ClassSpec) : Except SpecError Unit :=
  if s.className.isEmpty then .error .noClassName
  else if !isIdentifier s.className.toList then .error (.badClassName s.className)
  else
    match s.model with
    | some m => if m.hasAnonymous then .error (.anonymousModel m.text) else .ok ()
    | none => .ok ()

def names (s : ClassSpec) (base : BaseType) : ClassNames :=
  { className := s.className
    namespace_ := classNamespace
    baseClass := base.typeName
    imports := base.imports.union s.imports }

/-- The class that the template describes, and the specification with every import of the class. -/
def generate (s : ClassSpec) (translate : Translator) (base : BaseType) : Parsed × ClassSpec :=
  let t := translate s.template (s.names base)
  (t, { s with imports := s.imports.union t.tree.imports })

end ClassSpec
end Sigil.Code
