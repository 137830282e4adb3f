import Sigil.Template.Tree

/-!
# Base types

The type that a generated class wraps. A base type that is generic takes the marker of the model
type as its argument. Its constructors that are not private get one constructor each in the class.
-/

namespace Sigil.Code

open Template

structure BaseConstructor where
  name : String
  visibility : Visibility
  params : List Param
  deriving DecidableEq, Repr

/-- The constructor that takes the writer and the host. -/
def hostConstructor : BaseConstructor :=
  ⟨"new", .pub, [⟨"writer", "*mut c_void"⟩, ⟨"host", "*const HostVTable"⟩]⟩

def modelMarker : String := "__QuillModel"

structure BaseType where
  name : String
  takesModel : Bool := false
  /-- The imports that the type needs. -/
  imports : NameSet := ∅
  constructors : List BaseConstructor := [hostConstructor]
  /-- Source text that defines the type, with placeholders. -/
  source : Option String := none
  deriving DecidableEq, Inhabited

namespace BaseType

/-- The base of templates without a declared model type. -/
def modelFree : BaseType := ⟨"TemplateBase", false, ∅, [hostConstructor], none⟩

/-- The base of templates with a declared model type. -/
def ofModel : BaseType := ⟨"TemplateBaseOf", true, ∅, [hostConstructor], none⟩

def typeName (b : BaseType) : String :=
  if b.takesModel then b.name ++ "<" ++ modelMarker ++ ">" else b.name

/-- A constructor put in place of the first one with its name, or at the end. -/
def putConstructor (c : BaseConstructor) : List BaseConstructor → List BaseConstructor
  | [] => [c]
  | d :: r => if d.name = c.name then c :: r else d :: putConstructor c r

def withConstructor (b : BaseType) (c : BaseConstructor) : BaseType :=
  { b with constructors := putConstructor c b.constructors }

def forwarded (b : BaseType) : List BaseConstructor :=
  b.constructors.filter fun c => c.visibility ≠ .priv

end BaseType
end Sigil.Code
