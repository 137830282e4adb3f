import Sigil.Render.Encoding

/-!
# Values of a template

What an expression evaluates to: a JSON value, or text that is already encoded. Null has no text, a
string's text is the string itself, and that of any other value its compact JSON.
-/

namespace Sigil.Render

inductive Value where
  | json (j : Json)
  | encoded (e : Encoded)
  deriving Repr

namespace Value

def str (s : String) : Value := json (.str s)

def isNull : Value → Bool
  | json .null => true
  | _ => false

def bool? : Value → Option Bool
  | json (.bool b) => some b
  | _ => none

/-- The text before encoding; null has none. -/
def display? : Value → Option String
  | json .null => none
  | json (.str s) => some s
  | json j => some j.text
  | encoded e => some e.text

/-- The text to write, or the panic of the encoder; null has none. -/
def encode? (enc : Encoder) (v : Value) : Option (Except String String) :=
  match v with
  | encoded e => some (.ok e.text)
  | json _ => v.display?.map fun s => (enc.encode s).map (·.text)

theorem display?_eq_none_iff {v : Value} : v.display? = none ↔ v.isNull = true := by
  cases v with
  | encoded e => simp [display?, isNull]
  | json j => cases j <;> simp [display?, isNull]

end Value
end Sigil.Render
