/-!
# Faults of stencils

Why a stencil has no text.
-/

namespace Sigil.Stencil

inductive Fault where
  /-- The stencil is not well formed. -/
  | malformed
  | memberOfUndefined (name : String)
  | badOperands
  | outOfRange
  | notIterable
  /-- A value has not as many items as there are names for them. -/
  | cannotUnpack
  | badArguments
  | notCallable
  | badTarget
  | tooDeep
  /-- A name of a filter, a test, a function, a method, a block or another stencil. -/
  | unknown (name : String)
  deriving DecidableEq, Repr

abbrev Result := Except Fault

end Sigil.Stencil
