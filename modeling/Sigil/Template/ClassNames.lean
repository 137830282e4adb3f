import Sigil.Template.Tree
import Sigil.Text.Pieces

/-!
# The names of a generated class

The names of the class, of its base type and of the methods that generated code calls, and the names
derived from them: the dotted full name and the symbol that a library exports for it.
-/

namespace Sigil.Template

/-- The names that generated code is written with. -/
structure ClassNames where
  execute : String := "execute"
  write : String := "write"
  writeLiteral : String := "write_literal"
  writeTo : String := "write_to"
  writeLiteralTo : String := "write_literal_to"
  resolveUrl : String := "resolve_url"
  writeAttribute : String := "write_attribute"
  writeAttributeTo : String := "write_attribute_to"
  className : String := "Template"
  namespace_ : String := "CompiledTemplates.Dynamic"
  baseClass : String := "TemplateBase"
  imports : NameSet := ∅
  deriving DecidableEq, Inhabited

namespace ClassNames

def fullName (n : ClassNames) : String :=
  if n.namespace_.isEmpty then n.className else n.namespace_ ++ "." ++ n.className

/-- A class with a constructor that takes nothing and an execute method with a body. -/
def tree (n : ClassNames) (body : List Statement) : ClassTree where
  namespace_ := n.namespace_
  imports := n.imports
  className := n.className
  baseType := n.baseClass
  members := [.constructor ⟨"new", .pub, [], []⟩, .method n.execute body]

theorem body_tree (n : ClassNames) (body : List Statement) :
    (n.tree body).body n.execute = body := by
  simp [tree, ClassTree.body]

end ClassNames

/-- The dots of a text turned into underscores. -/
def undotted (s : List Char) : List Char := s.map fun c => if c = '.' then '_' else c

def typeSymbol (fullName : String) : String :=
  "quill_type__" ++ String.ofList (undotted fullName.toList)

theorem toList_typeSymbol (n : String) :
    (typeSymbol n).toList = "quill_type__".toList ++ undotted n.toList := by
  simp only [typeSymbol, String.toList_append, String.toList_ofList]

/-- The symbol under which a library lists its types. -/
def moduleTypesSymbol : String := "quill_module_types"

/-- The version of the call convention between a library and its host. -/
def abiVersion : Nat := 1

end Sigil.Template
