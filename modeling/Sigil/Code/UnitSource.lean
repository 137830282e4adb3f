import Sigil.Code.BaseSource
import Sigil.Code.Call
import Sigil.Code.Preparation
import Sigil.Code.Spec

/-!
# Generated units

The source text of a unit: imports, the base source, the class over its base type, and what the
library exports to be found and executed by a host.
-/

namespace Sigil.Code

open Template

def exportedName (t : ClassTree) : String := t.namespace_ ++ "." ++ t.className

def bodyLines (n : ClassNames) (body : List Statement) : List String :=
  body.flatMap (statementLines n)

/-- A constructor that passes its arguments on. -/
def constructorBlocks (t : ClassTree) (c : Constructor) : List Block :=
  let params := ", ".intercalate (c.params.map fun p => p.name ++ ": " ++ p.type)
  let args := ", ".intercalate c.baseArgs
  [.block ("pub fn " ++ c.name ++ "(" ++ params ++ ") -> Self ") "" [
     .block (t.className ++ " ") "" [
       .line ("base: <" ++ t.baseType ++ ">::" ++ c.name ++ "(" ++ args ++ "),")]],
   .blank]

/-- A member of the class apart from its constructors and its execute method. -/
def memberBlocks (n : ClassNames) : Member → List Block
  | .constructor _ => []
  | .method name body =>
    if name = n.execute then []
    else
      let lines := (bodyLines n body).map Block.line
      [.blank,
       .block ("pub fn " ++ name ++ "(&mut self) ") "" (if lines.isEmpty then [.blank] else lines)]
  | .snippet text => [.blank, .line text]

/-- The statements of every method that is executed. -/
def executed (n : ClassNames) (t : ClassTree) : List Statement :=
  t.members.flatMap fun
    | .method name body => if name = n.execute then body else []
    | _ => []

/-- What stands above the base source. -/
def unitHead (t : ClassTree) : List Block :=
  [.line "// Generated by quill. Do not edit.",
   .line ("// " ++ exportedName t),
   .line ("#![allow(dead_code, non_camel_case_types, non_snake_case, unused_imports, unused_mut, " ++
     "unused_variables)]"),
   .blank] ++
  t.imports.toList.map (fun i => .line ("use " ++ i ++ ";"))

def markerBlocks (model : ModelType) : List (List Block) :=
  [[.line ("pub struct " ++ modelMarker ++ ";")],
   [.block ("impl ModelMarker for " ++ modelMarker ++ " ") "" [
      .line ("const NAME: &'static str = " ++ Text.quote model.text ++ ";")]]]

/-- The class and its way to its base. -/
def classBlocks (n : ClassNames) (t : ClassTree) : List (List Block) :=
  [[.block ("pub struct " ++ t.className ++ " ") "" [.line ("base: " ++ t.baseType ++ ",")]],
   [.block ("impl Deref for " ++ t.className ++ " ") "" [
      .line ("type Target = " ++ t.baseType ++ ";"),
      .blank,
      .block "fn deref(&self) -> &Self::Target " "" [.line "&self.base"]]],
   [.block ("impl DerefMut for " ++ t.className ++ " ") "" [
      .block "fn deref_mut(&mut self) -> &mut Self::Target " "" [.line "&mut self.base"]]],
   [.block ("impl " ++ t.className ++ " ") ""
     (t.constructors.flatMap (constructorBlocks t) ++
      [.block ("pub fn " ++ n.execute ++ "(&mut self) ") ""
        ((bodyLines n (executed n t)).map Block.line)] ++
      t.members.flatMap (memberBlocks n))]]

/-- The description of the type and the list of the library's types. -/
def infoBlocks (t : ClassTree) (model : ModelType) : List (List Block) :=
  let name := Text.quote (exportedName t)
  [[.block "static TYPE_INFO: TemplateTypeInfo = TemplateTypeInfo " ";" [
      .line "abi_version: ABI_VERSION,",
      .line ("full_name: FfiStr::from_static(" ++ name ++ "),"),
      .line ("base_type: FfiStr::from_static(" ++ Text.quote t.baseType ++ "),"),
      .line ("model_type: FfiStr::from_static(" ++ Text.quote model.text ++ "),"),
      .line "execute: __quill_execute,"]],
   [.line ("static MODULE_TYPES: [FfiStr; 1] = [FfiStr::from_static(" ++ name ++ ")];")]]

/-- The function that executes a template, and the functions that the library exports. -/
def exportBlocks (n : ClassNames) (t : ClassTree) : List (List Block) :=
  [[.block "unsafe extern \"C\" fn __quill_execute(writer: *mut c_void, host: *const HostVTable) " ""
     [.block "let outcome = std::panic::catch_unwind(std::panic::AssertUnwindSafe(|| " "));" [
        .line ("let mut template = " ++ t.className ++ "::new(writer, host);"),
        .line ("template." ++ n.execute ++ "();")],
      .block "if let Err(payload) = outcome " "" [
        .line "TemplateBase::new(writer, host).fail(&panic_message(payload.as_ref()));"]]],
   [.line "#[no_mangle]",
    .block ("pub extern \"C\" fn " ++ typeSymbol (exportedName t) ++
        "() -> *const TemplateTypeInfo ") "" [
      .line "&TYPE_INFO"]],
   [.line "#[no_mangle]",
    .block ("pub unsafe extern \"C\" fn " ++ moduleTypesSymbol ++
        "(len: *mut usize) -> *const FfiStr ") "" [
      .block "if !len.is_null() " "" [.line "*len = MODULE_TYPES.len();"],
      .line "MODULE_TYPES.as_ptr()"]]]

/-- The source text of the unit for a class; `extra` is further source text for its base type. -/
def unitSource (n : ClassNames) (t : ClassTree) (model : ModelType) (extra : Option String) :
    String :=
  let extra : List (List Block) :=
    match extra with
    | some text => if text.isEmpty then [] else [[.line text]]
    | none => []
  layout (spaced
    ([unitHead t, [.line (baseSource n)]] ++ extra ++ markerBlocks model ++ classBlocks n t ++
      infoBlocks t model ++ exportBlocks n t))

end Sigil.Code
