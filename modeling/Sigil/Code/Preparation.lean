import Sigil.Text.Pieces
import Sigil.Code.Base

/-!
# Preparing class trees

What a class tree goes through before it is printed: `ClassTree.showLines` takes out everything that
hides lines, and `ClassTree.forwardTo` gives the class the constructors of its base type.
-/

namespace Sigil.Template

open Text Code

/-- The text in a snippet that hides the lines after it. -/
def hiddenLine : List Char := "#line hidden".toList

theorem hiddenLine_ne_nil : hiddenLine ≠ [] := by decide

def showSnippet (s : String) : String :=
  String.ofList (replaceAll hiddenLine hiddenLine_ne_nil [] s.toList)

/-- A statement without what hides lines; a pragma that hides them is left out. -/
def Statement.shown? : Statement → Option Statement
  | .pragma .hidden => none
  | .snippet s => some (.snippet (showSnippet s))
  | s => some s

def Member.shown : Member → Member
  | .method name body => .method name (body.filterMap Statement.shown?)
  | .snippet s => .snippet (showSnippet s)
  | .constructor c => .constructor c

/-- The constructor of a class that passes its parameters on to one of the base type. -/
def Constructor.forwarding (c : BaseConstructor) : Constructor :=
  ⟨c.name, .pub, c.params, c.params.map (·.name)⟩

def Member.isConstructor : Member → Bool
  | .constructor _ => true
  | _ => false

namespace ClassTree

def showLines (t : ClassTree) : ClassTree := { t with members := t.members.map Member.shown }

/-- The tree with one constructor for each that its base type forwards, in place of its own. A tree
whose base type forwards none stays as it is. -/
def forwardTo (t : ClassTree) (b : BaseType) : ClassTree :=
  match b.forwarded with
  | [] => t
  | cs =>
    { t with
      members := cs.map (.constructor ∘ Constructor.forwarding) ++
        t.members.filter (!·.isConstructor) }

def constructors (t : ClassTree) : List Constructor :=
  t.members.filterMap fun
    | .constructor c => some c
    | _ => none

end ClassTree
end Sigil.Template
