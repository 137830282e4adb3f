import Sigil.Code.Block
import Sigil.Template.ClassNames

/-!
# The base source

The source text that stands in front of every generated class. It declares what crosses the border
between a library and its host, and the two base types, whose methods have the names that the class
calls.
-/

namespace Sigil.Code

open Template

/-- Texts, operands and parts of attributes as they cross the border of a library. -/
def crossingTypes : List (List Block) :=
  [[.line "#[repr(C)]",
    .line "#[derive(Clone, Copy)]",
    .block "pub struct FfiStr " "" [
      .line "ptr: *const u8,",
      .line "len: usize,"]],
   [.line "unsafe impl Sync for FfiStr \x7b\x7d"],
   [.block "impl FfiStr " "" [
      .block "pub const fn from_static(s: &'static str) -> Self " "" [
        .line "FfiStr \x7b ptr: s.as_ptr(), len: s.len() \x7d"],
      .blank,
      .block "pub fn new(s: &str) -> Self " "" [
        .line "FfiStr \x7b ptr: s.as_ptr(), len: s.len() \x7d"]]],
   [.line "#[repr(C)]",
    .line "#[derive(Clone, Copy)]",
    .block "pub struct FfiExpr " "" [
      .line "kind: u32,",
      .line "mode: u32,",
      .line "text: FfiStr,"]],
   [.line "#[repr(C)]",
    .line "#[derive(Clone, Copy)]",
    .block "pub struct FfiAttributeValue " "" [
      .line "prefix: FfiStr,",
      .line "prefix_position: usize,",
      .line "value: FfiExpr,",
      .line "value_position: usize,",
      .line "literal: bool,"]]]

/-- The functions of the host, and the description of a template type. -/
def hostTypes : List (List Block) :=
  [[.line "#[repr(C)]",
    .block "pub struct HostVTable " "" [
      .line "abi_version: u32,",
      .line "write_to: unsafe extern \"C\" fn(*mut c_void, FfiExpr),",
      .line "write_literal_to: unsafe extern \"C\" fn(*mut c_void, FfiStr),",
      .line "write_attribute_to: unsafe extern \"C\" fn(",
      .line "    *mut c_void,",
      .line "    FfiStr,",
      .line "    FfiStr,",
      .line "    usize,",
      .line "    FfiStr,",
      .line "    usize,",
      .line "    *const FfiAttributeValue,",
      .line "    usize,",
      .line "),",
      .line "fail: unsafe extern \"C\" fn(*mut c_void, FfiStr),"]],
   [.line "#[repr(C)]",
    .block "pub struct TemplateTypeInfo " "" [
      .line "pub abi_version: u32,",
      .line "pub full_name: FfiStr,",
      .line "pub base_type: FfiStr,",
      .line "pub model_type: FfiStr,",
      .line "pub execute: unsafe extern \"C\" fn(*mut c_void, *const HostVTable),"]]]

def operandFunctions : List (List Block) :=
  [[.block "const fn expr(kind: u32, text: FfiStr) -> FfiExpr " "" [
      .line "FfiExpr \x7b kind, mode: 0, text \x7d"]],
   [.block "pub fn expr_path(path: &'static str) -> FfiExpr " "" [
      .line "expr(0, FfiStr::from_static(path))"]],
   [.block "pub fn expr_str(text: &str) -> FfiExpr " "" [
      .line "expr(1, FfiStr::new(text))"]],
   [.block "pub fn expr_number(text: &'static str) -> FfiExpr " "" [
      .line "expr(2, FfiStr::from_static(text))"]],
   [.block "pub fn expr_bool(value: bool) -> FfiExpr " "" [
      .line "expr(if value \x7b 3 \x7d else \x7b 4 \x7d, FfiStr::from_static(\"\"))"]],
   [.block "pub fn expr_null() -> FfiExpr " "" [
      .line "expr(5, FfiStr::from_static(\"\"))"]],
   [.block "pub fn raw(mut value: FfiExpr) -> FfiExpr " "" [
      .line "value.mode = 1;",
      .line "value"]],
   [.block "pub fn encode(mut value: FfiExpr) -> FfiExpr " "" [
      .line "value.mode = 2;",
      .line "value"]]]

def fragmentFunctions : List (List Block) :=
  [[.line "pub fn attr_literal(",
    .line "    prefix: &'static str,",
    .line "    prefix_position: usize,",
    .line "    value: &'static str,",
    .line "    value_position: usize,",
    .block ") -> FfiAttributeValue " "" [
      .block "FfiAttributeValue " "" [
        .line "prefix: FfiStr::from_static(prefix),",
        .line "prefix_position,",
        .line "value: expr(1, FfiStr::from_static(value)),",
        .line "value_position,",
        .line "literal: true,"]]],
   [.line "pub fn attr_dynamic(",
    .line "    prefix: &'static str,",
    .line "    prefix_position: usize,",
    .line "    value: FfiExpr,",
    .line "    value_position: usize,",
    .block ") -> FfiAttributeValue " "" [
      .block "FfiAttributeValue " "" [
        .line "prefix: FfiStr::from_static(prefix),",
        .line "prefix_position,",
        .line "value,",
        .line "value_position,",
        .line "literal: false,"]]]]

def modelMarkers : List (List Block) :=
  [[.line "/// Names the model type a template was compiled for.",
    .block "pub trait ModelMarker " "" [
      .line "const NAME: &'static str;"]],
   [.line "pub struct DynamicModel;"],
   [.block "impl ModelMarker for DynamicModel " "" [
      .line "const NAME: &'static str = \"dynamic\";"]]]

/-- The base type of templates without a declared model type. -/
def plainBase (n : ClassNames) : List (List Block) :=
  [[.line "/// Model-free template base.",
    .block "pub struct TemplateBase " "" [
      .line "writer: *mut c_void,",
      .line "host: *const HostVTable,"]],
   [.block "impl TemplateBase " "" [
      .block "pub fn new(writer: *mut c_void, host: *const HostVTable) -> Self " "" [
        .line "TemplateBase \x7b writer, host \x7d"],
      .blank,
      .block "fn host(&self) -> &HostVTable " "" [
        .line "unsafe \x7b &*self.host \x7d"],
      .blank,
      .block ("pub fn " ++ n.writeTo ++ "(&self, writer: *mut c_void, value: FfiExpr) ") "" [
        .line "unsafe \x7b (self.host().write_to)(writer, value) \x7d"],
      .blank,
      .block ("pub fn " ++ n.writeLiteralTo ++ "(&self, writer: *mut c_void, text: &str) ") "" [
        .line "unsafe \x7b (self.host().write_literal_to)(writer, FfiStr::new(text)) \x7d"],
      .blank,
      .line ("pub fn " ++ n.writeAttributeTo ++ "("),
      .line "    &self,",
      .line "    writer: *mut c_void,",
      .line "    name: &str,",
      .line "    prefix: (&str, usize),",
      .line "    suffix: (&str, usize),",
      .line "    values: &[FfiAttributeValue],",
      .block ") " "" [
        .block "unsafe " "" [
          .line "(self.host().write_attribute_to)(",
          .line "    writer,",
          .line "    FfiStr::new(name),",
          .line "    FfiStr::new(prefix.0),",
          .line "    prefix.1,",
          .line "    FfiStr::new(suffix.0),",
          .line "    suffix.1,",
          .line "    values.as_ptr(),",
          .line "    values.len(),",
          .line ")"]],
      .blank,
      .block ("pub fn " ++ n.write ++ "(&mut self, value: FfiExpr) ") "" [
        .line ("self." ++ n.writeTo ++ "(self.writer, value);")],
      .blank,
      .block ("pub fn " ++ n.writeLiteral ++ "(&mut self, text: &str) ") "" [
        .line ("self." ++ n.writeLiteralTo ++ "(self.writer, text);")],
      .blank,
      .line ("pub fn " ++ n.writeAttribute ++ "("),
      .line "    &mut self,",
      .line "    name: &str,",
      .line "    prefix: (&str, usize),",
      .line "    suffix: (&str, usize),",
      .line "    values: &[FfiAttributeValue],",
      .block ") " "" [
        .line ("self." ++ n.writeAttributeTo ++ "(self.writer, name, prefix, suffix, values);")],
      .blank,
      .line "/// Strips the application-root marker `~` from `path`.",
      .block ("pub fn " ++ n.resolveUrl ++ "(&self, path: &str) -> String ") "" [
        .line "path.strip_prefix('~').unwrap_or(path).to_string()"],
      .blank,
      .block "pub fn fail(&self, message: &str) " "" [
        .line "unsafe \x7b (self.host().fail)(self.writer, FfiStr::new(message)) \x7d"]]]]

def modelBase : List (List Block) :=
  [[.line "/// Template base bound to a model type.",
    .block "pub struct TemplateBaseOf<M: ModelMarker> " "" [
      .line "base: TemplateBase,",
      .line "model: PhantomData<M>,"]],
   [.block "impl<M: ModelMarker> TemplateBaseOf<M> " "" [
      .block "pub fn new(writer: *mut c_void, host: *const HostVTable) -> Self " "" [
        .block "TemplateBaseOf " "" [
          .line "base: TemplateBase::new(writer, host),",
          .line "model: PhantomData,"]],
      .blank,
      .block "pub fn model_type_name(&self) -> &'static str " "" [
        .line "M::NAME"]]],
   [.block "impl<M: ModelMarker> Deref for TemplateBaseOf<M> " "" [
      .line "type Target = TemplateBase;",
      .blank,
      .block "fn deref(&self) -> &TemplateBase " "" [
        .line "&self.base"]]],
   [.block "impl<M: ModelMarker> DerefMut for TemplateBaseOf<M> " "" [
      .block "fn deref_mut(&mut self) -> &mut TemplateBase " "" [
        .line "&mut self.base"]]]]

def panicMessage : List (List Block) :=
  [[.block "pub fn panic_message(payload: &(dyn std::any::Any + Send)) -> String " "" [
      .line "payload",
      .line "    .downcast_ref::<&str>()",
      .line "    .map(|s| s.to_string())",
      .line "    .or_else(|| payload.downcast_ref::<String>().cloned())",
      .line "    .unwrap_or_else(|| \"template panicked\".to_string())"]]]

/-- What stands before the declarations: the names used from elsewhere and the version of the call
convention. -/
def preamble : List (List Block) :=
  [[.line "// Quill template runtime interface. Mirrors quill_runtime::abi."],
   [.line "use std::ffi::c_void;",
    .line "use std::marker::PhantomData;",
    .line "use std::ops::\x7bDeref, DerefMut\x7d;"],
   [.line ("pub const ABI_VERSION: u32 = " ++ toString abiVersion ++ ";")]]

/-- The source text in front of a class. -/
def baseSource (n : ClassNames) : String :=
  layout (spaced (preamble ++ crossingTypes ++ hostTypes ++ operandFunctions ++ fragmentFunctions ++
    modelMarkers ++ plainBase n ++ modelBase ++ panicMessage))

end Sigil.Code
