import Sigil.Order.NameSet
import Sigil.Template.Expr

/-!
# The class tree

The class that a template turns into: its imports, constructors and methods, and the statements of
the execute method. Texts that came from the template carry their byte offset.
-/

namespace Sigil.Template

/-- A text and the offset it came from. -/
structure Placed where
  text : String
  position : Nat
  deriving DecidableEq, Repr, Inhabited

/-- A part of an attribute value, with the blanks in front of it. -/
inductive Fragment where
  | literal (lead value : Placed)
  | dynamic (lead : Placed) (expr : Expr) (position : Nat)
  deriving DecidableEq, Repr

/-- An attribute whose value holds at least one expression. `opening` reaches from the blanks in
front of the name to the quote, `closing` from the blanks after the last fragment to the quote. -/
structure AttributeWrite where
  name : String
  opening : Placed
  closing : Placed
  fragments : List Fragment
  deriving DecidableEq, Repr

/-- Where the code that follows comes from. -/
inductive Pragma where
  | line (line : Nat) (file : String)
  | hidden
  | default
  deriving DecidableEq, Repr

inductive Statement where
  | literal (text : String) (position : Nat)
  | write (expr : Expr) (position : Nat)
  | attribute (write : AttributeWrite)
  | pragma (pragma : Pragma)
  /-- Source text taken as it is. -/
  | snippet (text : String)
  deriving DecidableEq, Repr

inductive Visibility where
  | pub
  | prot
  | priv
  deriving DecidableEq, Repr

structure Param where
  name : String
  type : String
  deriving DecidableEq, Repr

/-- A constructor of the class; `baseArgs` go to the base type's constructor of the same name. -/
structure Constructor where
  name : String
  visibility : Visibility
  params : List Param
  baseArgs : List String
  deriving DecidableEq, Repr

inductive Member where
  | constructor (c : Constructor)
  | method (name : String) (body : List Statement)
  | snippet (text : String)
  deriving DecidableEq, Repr

/-- A namespace that holds one class. -/
structure ClassTree where
  namespace_ : String
  imports : NameSet
  className : String
  baseType : String
  members : List Member
  deriving DecidableEq

namespace ClassTree

/-- The body of the first method with a name; empty if there is none. -/
def body (t : ClassTree) (method : String) : List Statement :=
  (t.members.findSome? fun
    | .method name body => if name = method then some body else none
    | _ => none).getD []

end ClassTree
end Sigil.Template
