import Sigil.Decimal.Natural
import Sigil.Json.Basic
import Sigil.Text.Pieces

/-!
# Paths into JSON values

A dotted path names a value inside another one: a segment is the key of an object's member or the
index of an array's item. `walk` follows segments and stops at the first that names nothing.
-/

namespace Sigil.Json

def member? (j : Json) (segment : String) : Option Json :=
  match j with
  | obj ms => Keyed.get? segment ms
  | arr items => (Decimal.natural? segment.toList).bind (items[·]?)
  | _ => none

def walk? (j : Json) : List String → Option Json
  | [] => some j
  | s :: r => (j.member? s).bind (walk? · r)

/-- The segments of a dotted path; there is always at least one. -/
def segments (path : String) : List String :=
  (Text.fields '.' path.toList).map String.ofList

def dotted (segments : List String) : String := ".".intercalate segments

theorem segments_ne_nil (path : String) : segments path ≠ [] := by
  simp [segments, Text.fields_ne_nil]

end Sigil.Json
