import Sigil.Text.Pieces

/-!
# Model types

The type that a template's model is declared with, as it is written: a path with arguments, an
array, a slice, a tuple or a reference. A path with a segment in braces names a type that has no
name of its own, such as a closure.
-/

namespace Sigil

inductive ModelType where
  /-- No declared type. -/
  | dynamic
  | named (path : String) (args : List ModelType)
  | array (element : ModelType) (length : String)
  | slice (element : ModelType)
  | tuple (members : List ModelType)
  | reference (mutable : Bool) (inner : ModelType)
  /-- A type without a name, as it was written. -/
  | anonymous (path : String)
  deriving Repr, Inhabited

namespace ModelType

mutual

def same : ModelType → ModelType → Bool
  | dynamic, dynamic => true
  | named p as, named q bs => p == q && sameAll as bs
  | array e l, array f m => same e f && l == m
  | slice e, slice f => same e f
  | tuple as, tuple bs => sameAll as bs
  | reference m a, reference n b => m == n && same a b
  | anonymous p, anonymous q => p == q
  | _, _ => false

def sameAll : List ModelType → List ModelType → Bool
  | [], [] => true
  | a :: as, b :: bs => same a b && sameAll as bs
  | _, _ => false

end

mutual

theorem same_iff : ∀ {a b : ModelType}, same a b = true ↔ a = b
  | dynamic, b => by cases b <;> simp [same]
  | named p as, b => by cases b <;> simp [same, sameAll_iff]
  | array e l, b => by cases b <;> simp [same, same_iff]
  | slice e, b => by cases b <;> simp [same, same_iff]
  | tuple as, b => by cases b <;> simp [same, sameAll_iff]
  | reference m a, b => by cases b <;> simp [same, same_iff]
  | anonymous p, b => by cases b <;> simp [same]

theorem sameAll_iff : ∀ {as bs : List ModelType}, sameAll as bs = true ↔ as = bs
  | [], bs => by cases bs <;> simp [sameAll]
  | a :: as, bs => by cases bs <;> simp [sameAll, same_iff, sameAll_iff]

end

instance : DecidableEq ModelType := fun _ _ => decidable_of_iff _ same_iff

def isDynamic : ModelType → Bool
  | dynamic => true
  | _ => false

mutual

/-- Whether the type or a type that it is made of is anonymous. -/
def hasAnonymous : ModelType → Bool
  | anonymous _ => true
  | dynamic => false
  | named _ args => anyAnonymous args
  | array e _ => hasAnonymous e
  | slice e => hasAnonymous e
  | tuple members => anyAnonymous members
  | reference _ t => hasAnonymous t

def anyAnonymous : List ModelType → Bool
  | [] => false
  | t :: ts => hasAnonymous t || anyAnonymous ts

end

/-! ## Text -/

mutual

def chars : ModelType → List Char
  | dynamic => ['d', 'y', 'n', 'a', 'm', 'i', 'c']
  | named path [] => path.toList
  | named path (a :: as) => path.toList ++ '<' :: chars a ++ charsRest as ++ ['>']
  | array e length => '[' :: chars e ++ [';', ' '] ++ length.toList ++ [']']
  | slice e => '[' :: chars e ++ [']']
  | tuple [] => ['(', ')']
  | tuple [t] => '(' :: chars t ++ [',', ')']
  | tuple (t :: u :: ts) => '(' :: chars t ++ charsRest (u :: ts) ++ [')']
  | reference mutable t =>
    '&' :: (if mutable then ['m', 'u', 't', ' '] else []) ++ chars t
  | anonymous path => path.toList

def charsRest : List ModelType → List Char
  | [] => []
  | t :: ts => ',' :: ' ' :: chars t ++ charsRest ts

end

def text (t : ModelType) : String := String.ofList t.chars

end ModelType
end Sigil
