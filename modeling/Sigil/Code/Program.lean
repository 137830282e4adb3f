import Sigil.Code.SourceUnit
import Sigil.Render.Call

/-!
# The program of a unit

What the code of a unit does when it is executed: one call to the host for every call of its execute
method. The functions of the base source give the arguments their numbers, and the outermost of
several modes counts.
-/

namespace Sigil.Code

open Template Text Render

/-- A path without the sign of the application's root. -/
def resolveUrl (path : String) : String :=
  String.ofList ((after? ['~'] path.toList).getD path.toList)

/-- The argument that a term passes; `urls` are the resolved URLs that locals are bound to. -/
def Term.argument (urls : List String) : Term → Argument
  | .path p => ⟨0, 0, Utf8.encode p⟩
  | .str s => ⟨1, 0, Utf8.encode s⟩
  | .number s => ⟨2, 0, Utf8.encode s⟩
  | .bool true => ⟨3, 0, []⟩
  | .bool false => ⟨4, 0, []⟩
  | .null => ⟨5, 0, []⟩
  | .raw t => { t.argument urls with mode := 1 }
  | .encode t => { t.argument urls with mode := 2 }
  | .url k => ⟨1, 0, Utf8.encode (urls.getD k "")⟩

def Part.fragment (urls : List String) : Part → FragmentArgument
  | .literal lead value =>
    ⟨Utf8.encode lead.text, lead.position, ⟨1, 0, Utf8.encode value.text⟩, value.position, true⟩
  | .dynamic lead t position =>
    ⟨Utf8.encode lead.text, lead.position, t.argument urls, position, false⟩

def Call.hostCall (urls : List String) : Call → Render.Call
  | .literal text => .literal (Utf8.encode text)
  | .write t => .write (t.argument urls)
  | .attribute name opening closing parts =>
    .attribute (Utf8.encode name) (Utf8.encode opening.text) opening.position
      (Utf8.encode closing.text) closing.position (parts.map (Part.fragment urls))

def Step.hostCall (s : Step) : Render.Call := s.call.hostCall (s.urls.map resolveUrl)

def hostCalls (body : List Statement) : List Render.Call :=
  (body.filterMap Step.ofStatement?).map Step.hostCall

/-- What executing a unit does. -/
def SourceUnit.program (u : SourceUnit) : Program :=
  ⟨abiVersion, hostCalls (executed u.names u.tree)⟩

end Sigil.Code
