import Sigil.Code.Preparation
import Sigil.Code.Spec
import Sigil.Code.UnitSource
import Sigil.Stencil.Render

/-!
# Source units

A class together with everything that its source text is written from. The source text of a base
type is a stencil, which may use the names of the class's methods and the version of the call
convention.
-/

namespace Sigil.Code

open Template

/-- The names that the source text of a base type may use. -/
def stencilNames (n : ClassNames) : Stencil.Bindings :=
  let methods := [("execute", n.execute), ("write", n.write), ("write_literal", n.writeLiteral),
    ("write_to", n.writeTo), ("write_literal_to", n.writeLiteralTo), ("resolve_url", n.resolveUrl),
    ("write_attribute", n.writeAttribute), ("write_attribute_to", n.writeAttributeTo)]
  let members := methods.map fun (method, name) =>
    (Stencil.Value.ofText (method ++ "_method_name"), Stencil.Value.ofText name)
  [("abi_version", .int abiVersion), ("names", .dict members false)]

def renderSource (n : ClassNames) (source : String) : Except Stencil.Fault String :=
  Stencil.render (stencilNames n) source

structure SourceUnit where
  names : ClassNames
  tree : ClassTree
  model : ModelType
  /-- The source text of the base type, if it has one of its own. -/
  extra : Option String
  deriving DecidableEq

namespace SourceUnit

def of (n : ClassNames) (t : ClassTree) (base : BaseType) (model : ModelType) :
    Except Stencil.Fault SourceUnit := do
  let extra ← base.source.mapM (renderSource n)
  return ⟨n, t.showLines.forwardTo base, model, extra⟩

def text (u : SourceUnit) : String := unitSource u.names u.tree u.model u.extra

end SourceUnit
end Sigil.Code
