import Sigil.Engine.Settings
import Sigil.Yaml.Reader

/-!
# Settings files

Settings are written as a map. A key must be one of those below and must not be written twice; what
is not written stays as it is by default.
-/

namespace Sigil.Engine

open Yaml

/-- The number in some base that digits spell, if 64 bits hold it. -/
def digitsIn? (base : Nat) (ds : List Char) : Option Nat := do
  let values ← ds.mapM Text.hexValue?
  let n := values.foldl (fun n d => base * n + d) 0
  if !ds.isEmpty && values.all (· < base) && n < Decimal.bound64 then some n else none

/-- A number without sign: decimal without leading zeros, or behind the mark of another base. -/
def unsigned? (s : List Char) : Option Nat :=
  match Decimal.dropPlus s with
  | '0' :: 'x' :: r => digitsIn? 16 r
  | '0' :: 'o' :: r => digitsIn? 8 r
  | '0' :: 'b' :: r => digitsIn? 2 r
  | ['0'] => some 0
  | '0' :: _ => none
  | r => digitsIn? 10 r

def seconds? (d : Document) (n : Node) : Option Nat := do unsigned? (← d.valueText? "int" n).toList

def encoding? (d : Document) (n : Node) : Option Render.Encoding :=
  match d.word? n with
  | some "html" => some .html
  | some "raw" => some .raw
  | _ => none

namespace Settings

def set? (s : Settings) (d : Document) (key : String) (v : Node) : Option Settings :=
  match key with
  | "rustc" => (d.option? d.text? v).map fun x => { s with compilerProgram := x }
  | "edition" => (d.text? v).map fun x => { s with edition := x }
  | "debug" => (d.bool? v).map fun x => { s with debug := x }
  | "disable_temp_file_locking" => (d.bool? v).map fun x => { s with copiesLibraries := x }
  | "temp_dir" => (d.option? d.text? v).map fun x => { s with tempDir := x }
  | "timeout_secs" => (d.option? (seconds? d) v).map fun x => { s with timeoutSeconds := x }
  | "namespaces" => (d.texts? v).map fun x => { s with imports := .ofList x }
  | "references" => (d.texts? v).map fun x => { s with references := x }
  | "extra_args" => (d.texts? v).map fun x => { s with extraArgs := x }
  | "encoding" => (encoding? d v).map fun x => { s with encoding := x }
  | _ => none

/-- The settings with the members of a map set, each key once. -/
def setAll? (s : Settings) (d : Document) :
    (set : List String) → List (Node × Node) → Option Settings
  | _, [] => some s
  | set, (k, v) :: ms => do
    let key ← d.text? k
    if set.contains key then none else (← s.set? d key v).setAll? d (key :: set) ms

def ofDocument? (d : Document) : Option Settings := do setAll? {} d [] (← d.members? d.root)

def parse (text : String) : Option Settings := (Yaml.parse text).bind ofDocument?

end Settings
end Sigil.Engine
