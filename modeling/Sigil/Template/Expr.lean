/-!
# Expressions

What an `@` directive writes. A path, string, number, truth value or null is a leaf; so is the path
of a URL that is resolved when the template runs. `raw` and `encode` wrap an expression and say how
its text is encoded.
-/

namespace Sigil.Template

/-- An expression of a directive. -/
inductive Expr where
  /-- A dotted member path. -/
  | path (members : String)
  | str (text : String)
  /-- A number, kept as written. -/
  | number (text : String)
  | bool (value : Bool)
  | null
  /-- The text is not encoded again. -/
  | raw (inner : Expr)
  /-- The text is HTML-encoded whatever the encoder. -/
  | encode (inner : Expr)
  /-- A URL below the root of the application. -/
  | url (path : String)
  deriving DecidableEq, Repr, Inhabited

def isNameStart (c : Char) : Bool := c.isAlpha || c == '_'

def isNamePart (c : Char) : Bool := c.isAlphanum || c == '_'

theorem isNamePart_of_isNameStart {c : Char} (h : isNameStart c = true) : isNamePart c = true := by
  simp only [isNameStart, Bool.or_eq_true] at h
  simp only [isNamePart, Char.isAlphanum, Bool.or_eq_true]
  exact h.imp .inl id

end Sigil.Template
