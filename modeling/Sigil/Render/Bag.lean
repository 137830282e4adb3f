import Sigil.Json.Path
import Sigil.Json.Reader

/-!
# Bags of side values

Named values that a template reads beside its model, in ascending order of their names. A name that
is not there reads as null.
-/

namespace Sigil.Render

/-- Named values; the names ascend. -/
structure Bag where
  entries : List (String × Json)
  ascending : Keyed.Ascending entries

namespace Bag

def empty : Bag := ⟨[], .nil⟩

instance : EmptyCollection Bag := ⟨empty⟩

instance : Inhabited Bag := ⟨empty⟩

def get? (b : Bag) (k : String) : Option Json := Keyed.get? k b.entries

def contains (b : Bag) (k : String) : Bool := (b.get? k).isSome

/-- A value set, in place of any earlier one. -/
def set (b : Bag) (k : String) (v : Json) : Bag :=
  ⟨Keyed.put k v b.entries, Keyed.ascending_put b.ascending⟩

/-- A value set unless the name is there. -/
def add (b : Bag) (k : String) (v : Json) : Bag := if b.contains k then b else b.set k v

def addAll (b : Bag) (es : List (String × Json)) : Bag := es.foldl (fun b e => b.add e.1 e.2) b

def ofList (es : List (String × Json)) : Bag := ⟨Keyed.ofList es, Keyed.ascending_ofList es⟩

def keys (b : Bag) : List String := b.entries.map (·.1)

def size (b : Bag) : Nat := b.entries.length

def isEmpty (b : Bag) : Bool := b.entries.isEmpty

def toJson (b : Bag) : Json := .obj b.entries

def parse? (text : String) : Option Bag :=
  match Json.parse text with
  | some (.obj ms) => some (ofList ms)
  | _ => none

def lookupBelow (j : Json) : List String → Json
  | [] => j
  | s :: r =>
    match j.member? s with
    | some k => lookupBelow k r
    | none => .null

/-- The value at the end of a dotted path, or null. -/
def lookup (b : Bag) (path : String) : Json :=
  match Json.segments path with
  | [] => .null
  | s :: r =>
    match b.get? s with
    | some j => lookupBelow j r
    | none => .null

end Bag
end Sigil.Render
